import Bunting.Crossings
import Bunting.Traces

/-!
Books outside the call phases. A venue that trades continuously or is closed has
clear books: an order rests there only once no order is left for it to trade
with. An auction whose volume is out of range is not held, so this is said of
the runs in which every auction is.
-/

namespace Bunting
open Stateful

/-! ### One move -/

/-- The books of the venues outside a call phase are clear, but for those whose auctions are pending. -/
def ClearBooks (pending : List ListingKey) (run : RunState) : Prop :=
  ∀ key, key ∉ pending → (run.session_phase key.venue_id).Apart → Book.Clear (run.book key).view

namespace Book
variable {view view' : OrdMap OrderId Resting} {id : OrderId}

/-- A book that holds only what a clear one held is clear. -/
theorem Clear.shrink (clear : Clear view) (fewer : ∀ id order, view'.get? id = some order →
    ∃ before, view.get? id = some before ∧ before.side = order.side ∧ before.price = order.price) : Clear view' := by
  intro i j buy sell buys sells buy_side sell_side
  obtain ⟨bid,bids,side,price⟩ := fewer i buy buys
  obtain ⟨ask,asks,side',price'⟩ := fewer j sell sells
  rw [← price,← price']
  exact clear i j bid ask bids asks (side.trans buy_side) (side'.trans sell_side)

theorem Clear.cancel (clear : Clear view) (id : OrderId) : Clear (view.set id none) := by
  refine clear.shrink fun j order found => ⟨order,?_,rfl,rfl⟩
  rw [OrdMap.get?_set] at found
  split_ifs at found
  exact found

theorem Matched.left {taker : Side} {limit : Option Int} {found : List Match} {order : Resting}
    (matched : Matched taker limit view found view') (there : view'.get? id = some order) :
    ∃ before, view.get? id = some before ∧ before.side = order.side ∧ before.price = order.price := by
  induction matched with
  | nil => exact ⟨order,there,rfl,rfl⟩
  | @cons view view' m rest maker found _ _ _ _ _ _ _ ih =>
    obtain ⟨between,here,side,price⟩ := ih there
    rw [OrdMap.get?_set] at here
    split_ifs at here with same
    · refine ⟨maker,same ▸ found,?_⟩
      unfold Resting.taken at here
      split_ifs at here
      cases here
      exact ⟨side,price⟩
    · exact ⟨between,here,side,price⟩

/-- An order that no order on the other side is within the limit of keeps a book clear. -/
theorem Clear.rest {book : Book} {side : Side} {price quantity : Int} (clear : Clear book.view)
    (exhausted : Exhausted side (some price) book) : Clear (book.view.set id (some ⟨side,price,quantity⟩)) := by
  intro i j buy sell buys sells buy_side sell_side
  rw [OrdMap.get?_set] at buys sells
  split_ifs at buys sells with at_buy at_sell
  · cases buys; cases sells
    simp only at buy_side sell_side
    rw [buy_side] at sell_side
    cases sell_side
  · cases buys
    simp only at buy_side
    subst buy_side
    have apart := exhausted j sell sells sell_side
    simpa [reaches,Bunting.crosses] using apart
  · cases sells
    simp only at sell_side
    subst sell_side
    have apart := exhausted i buy buys buy_side
    simpa [reaches,Bunting.crosses] using apart
  · exact clear i j buy sell buys sells buy_side sell_side

theorem Sound.cancel_ok {book book' : Book} {order : BookOrder} (sound : book.Sound)
    (cancels : Book.cancel id book = (some order,book')) : book'.Sound := by
  cases found : book.orders.get? id with
  | none =>
    unfold Book.cancel at cancels
    rw [found] at cancels
    cases cancels
  | some resting =>
    obtain ⟨_,ran,sound',_⟩ := cancel_total sound found
    cases ran.symm.trans cancels
    exact sound'

end Book

section Moves
variable {setup : Setup} {base : SimulationState} {now : Nat} {a b : Mode × Transition} {pending : List ListingKey}

theorem book_of_put {run : RunState} {key : ListingKey} {listing : ListingState} {book : Book} {run' : RunState}
    (known : run.listings.get? key = some listing) (same : run'.listings = put_book run.listings key book) (j : ListingKey) :
    run'.book j = if j = key then book else run.book j := by
  rw [RunState.book,same]
  exact book_put_book known j

theorem Move.books (move : Move setup base now a b) (sound : ∀ key, (a.2.run.book key).Sound) :
    ∀ key, (b.2.run.book key).Sound := by
  have puts {run run' : RunState} {key : ListingKey} {listing : ListingState} {book : Book}
      (sound : ∀ key, (run.book key).Sound) (known : run.listings.get? key = some listing)
      (same : run'.listings = put_book run.listings key book) (next : listing.book.Sound → book.Sound) :
      ∀ j, (run'.book j).Sound := by
    intro j
    rw [book_of_put known same]
    split_ifs
    · exact next (RunState.book_of_listing known ▸ sound key)
    · exact sound j
  cases move with
  | canceled _ _ known cancels _ _ => exact puts sound known rfl fun before => before.cancel_ok cancels
  | executed known executed => exact puts sound known rfl fun _ => executed.sound
  | uncrossed known _ ran => exact puts sound known rfl fun before => (Book.uncross_ok before ran).1
  | rested known _ _ _ _ rests => exact puts sound known rfl fun before => (Book.rest_ok before rests).1
  | touched _ | emitted _ | simulated _ _ | filled _ _ | called _ | accepted _ _ _ _ | completed _ _ | dropped _ _ _
  | switched _ | marked _ | closed _ _ | passed _ _ _ _ | announced _ => exact sound

def RunState.passed (run : RunState) : Nat := run.session_steps.sum (fun _ step => step)

theorem Move.passed_le (move : Move setup base now a b) :
    a.2.run.passed ≤ b.2.run.passed ∧ (b.2.run.passed = a.2.run.passed → b.2.run.session_steps = a.2.run.session_steps) := by
  cases move with
  | @passed mode t calendar venue step boundary has at_step _ _ =>
    have total := t.run.session_steps.sum_insert (fun _ step => step) venue (step + 1)
    rw [at_step,Option.elim_some] at total
    simp only [RunState.passed]
    refine ⟨by omega,fun same => ?_⟩
    omega
  | _ => exact ⟨le_rfl,fun _ => rfl⟩

/-- Every move but the passing of a boundary keeps the books clear. -/
theorem Move.clear (move : Move setup base now a b) (sound : ∀ key, (a.2.run.book key).Sound)
    (steps : b.2.run.session_steps = a.2.run.session_steps) (clear : ClearBooks pending a.2.run) :
    ClearBooks pending b.2.run := by
  have calendar : b.2.run.calendar = a.2.run.calendar := congrArg Setup.calendar move.keeps_setup
  have phases (venue : VenueId) := session_phase_congr calendar steps venue
  have puts {run run' : RunState} {key : ListingKey} {listing : ListingState} {book : Book}
      (sound : ∀ key, (run.book key).Sound) (clear : ClearBooks pending run)
      (phases : ∀ venue, run'.session_phase venue = run.session_phase venue)
      (known : run.listings.get? key = some listing) (same : run'.listings = put_book run.listings key book)
      (next : listing.book.Sound → Book.Clear listing.book.view → (run.session_phase key.venue_id).Apart →
        Book.Clear book.view) : ClearBooks pending run' := by
    intro j settled apart
    rw [phases] at apart
    rw [book_of_put known same]
    split_ifs with here
    · subst here
      rw [← RunState.book_of_listing known] at next
      exact next (sound j) (clear j settled apart) apart
    · exact clear j settled apart
  cases move with
  | canceled _ _ known _ view _ =>
    exact puts sound clear phases known rfl fun _ before _ => by rw [view]; exact before.cancel _
  | executed known executed =>
    exact puts sound clear phases known rfl fun _ before _ => before.shrink fun _ _ found => executed.matched.left found
  | uncrossed known _ ran =>
    exact puts sound clear phases known rfl fun sound before _ =>
      before.shrink fun _ _ found => (Book.uncross_ok sound ran).2.1.left found
  | rested known _ _ _ exhausted rests =>
    refine puts sound clear phases known rfl fun sound before apart => ?_
    rw [(Book.rest_ok sound rests).2.2.2.2.2]
    refine before.rest (exhausted.resolve_left fun collects => ?_)
    rcases apart with phase | phase <;> rw [phase] at collects <;> cases collects
  | @passed mode t calendar venue step boundary has at_step _ _ =>
    have here := congrArg (OrdMap.get? · venue) steps
    simp only [OrdMap.get?_insert_self,at_step,Option.some.injEq] at here
    omega
  | touched _ | emitted _ | simulated _ _ | filled _ _ | called _ | accepted _ _ _ _ | completed _ _ | dropped _ _ _
  | switched _ | marked _ | closed _ _ | announced _ =>
    exact fun key settled apart => clear key settled (by rw [← phases]; exact apart)

theorem Moves.passed_le (moves : Moves setup base now a b) : a.2.run.passed ≤ b.2.run.passed := by
  induction moves with
  | refl => exact le_rfl
  | tail _ move ih => exact ih.trans move.passed_le.1

theorem Moves.clear (moves : Moves setup base now a b) (sound : ∀ key, (a.2.run.book key).Sound)
    (same : b.2.run.passed = a.2.run.passed) (clear : ClearBooks pending a.2.run) :
    (∀ key, (b.2.run.book key).Sound) ∧ ClearBooks pending b.2.run := by
  induction moves with
  | refl => exact ⟨sound,clear⟩
  | @tail c d before move ih =>
    have first := Moves.passed_le before
    obtain ⟨second,steps⟩ := move.passed_le
    obtain ⟨sound,clear⟩ := ih (by omega)
    exact ⟨move.books sound,move.clear sound (steps (by omega)) clear⟩

end Moves

/-! ### Auctions of a transition -/

/-- The volume of every auction of the step is in range. -/
def AuctionsFit (s : RunState) (input : Input) : Prop :=
  ∀ crossing ∈ input.crossings s, ∀ call ∈ crossing.calls, (call.2.run.book call.1).Fits

instance (s : RunState) (input : Input) : Decidable (AuctionsFit s input) :=
  inferInstanceAs (Decidable (∀ crossing ∈ input.crossings s, ∀ call ∈ crossing.calls, (call.2.run.book call.1).Fits))

section Segments
variable {F : Frame} {t u : Transition} {pending : List ListingKey}

/-- A piece of a transition that passes no boundary keeps the books clear. -/
theorem Inv.clear (after : Inv F u) (starts : F.start = t) (sound : ∀ key, (t.run.book key).Sound)
    (steps : t.run.session_steps = F.steps) (clear : ClearBooks pending t.run) : ClearBooks pending u.run := by
  have moves := after.moves
  rw [starts] at moves
  have same : u.run.passed = t.run.passed := by rw [RunState.passed,RunState.passed,after.steps,steps]
  exact (moves.clear sound same clear).2

variable (opened : F.mode = .Open)
include opened

/-- The auctions of the listings pending clear their books. -/
theorem auctions_clear (keys : List ListingKey) (inv : Inv F t)
    (listed : ∀ key ∈ keys, F.setup.definitions.contains key = true)
    (fits : ∀ call ∈ auction_calls keys t, (call.2.run.book call.1).Fits)
    (ran : (forM keys (fun listing => do touch listing; auction listing)).run t = .ok () u)
    (clear : ClearBooks keys t.run) : Inv F u ∧ ClearBooks [] u.run := by
  induction keys generalizing t with
  | nil =>
    cases ran
    exact ⟨inv,clear⟩
  | cons key rest ih =>
    rw [List.forM_cons,bind_eq_ok] at ran
    obtain ⟨_,v,holds,later⟩ := ran
    have here := listed key List.mem_cons_self
    have touched : Inv F { t with changed := t.changed.insert key () } := inv.touch _
    have both (G : Frame) (opened : G.mode = .Open) (inv : Inv G { t with changed := t.changed.insert key () })
        (here : G.setup.definitions.contains key = true) :
        Inv G v ∧ Auctioned key t v := auction_call opened inv here holds
    obtain ⟨inv',auctioned⟩ := both F opened touched here
    have kept : ClearBooks (key :: rest) v.run :=
      (both _ rfl touched.rebase here).1.clear rfl inv.books inv.steps clear
    unfold auction_calls at fits
    rw [holds] at fits
    refine ih inv' (fun j member => listed j (List.mem_cons_of_mem _ member))
      (fun call member => fits call (List.mem_cons_of_mem _ member)) later fun j settled apart => ?_
    by_cases same : j = key
    · have here := fits (key,t) List.mem_cons_self
      exact same ▸ auctioned.clears here
    · exact kept j (by simp [same,settled]) apart

/-- A boundary clears the books of a venue that it takes out of a call phase. -/
theorem cross_boundary_clear {venue : VenueId} {step : Nat} {boundary : Boundary} (inv : Inv F t)
    (due : F.Due venue step boundary)
    (fits : boundary.phase.Apart → ∀ call ∈ auction_calls (t.run.venue_listings venue) (t.pass venue step),
      (call.2.run.book call.1).Fits)
    (ran : (cross_boundary venue step boundary).run t = .ok () u) (clear : ClearBooks [] t.run) :
    ClearBooks [] u.run := by
  obtain ⟨crossed,expired,uncrosses,expires,closes⟩ := cross_boundary_run ran
  have passed : Inv { F with steps := F.steps.insert venue (step + 1) } (t.pass venue step) := inv.pass due
  obtain ⟨calendar,has,crosses⟩ := due.passes
  have has' : t.run.calendar = some calendar := by rw [inv.calendar,has]
  -- The other venues are as they were; this one is in the phase of the boundary.
  have elsewhere (key : ListingKey) (other : key.venue_id ≠ venue) :
      (t.pass venue step).run.session_phase key.venue_id = t.run.session_phase key.venue_id := by
    simp only [RunState.session_phase,Transition.pass,OrdMap.get?_insert_of_ne other]
  have here : (t.pass venue step).run.session_phase venue = boundary.phase := by
    simp only [RunState.session_phase,Transition.pass,has',OrdMap.get?_insert_self,Option.isNone_some,Bool.false_eq_true,if_false,
      Option.getD_some]
    obtain ⟨_,_,_,_,phase⟩ := Calendar.boundary_some crosses
    exact phase.symm
  have held : Inv { F with steps := F.steps.insert venue (step + 1) } crossed ∧ ClearBooks [] crossed.run := by
    unfold uncross_venue at uncrosses
    by_cases apart : boundary.phase.Apart
    · have trades : boundary.phase = .Continuous ∨ boundary.phase = .Closed := apart
      rw [if_pos trades] at uncrosses
      simp only [returned] at uncrosses
      refine auctions_clear opened _ passed (fun key member => ?_) (fits apart) uncrosses fun key settled open_ => ?_
      · obtain ⟨listing,known⟩ := OrdMap.mem_keys.mp (List.mem_filter.mp member).1
        rw [← passed.setup]
        exact OrdMap.contains_iff.mpr ⟨_,RunState.definition_of_listing known⟩
      · by_cases own : key.venue_id = venue
        · have absent : (t.pass venue step).run.listings.get? key = none := by
            by_contra there
            obtain ⟨listing,known⟩ := Option.ne_none_iff_exists'.mp there
            exact settled (List.mem_filter.mpr ⟨OrdMap.mem_keys.mpr ⟨listing,known⟩,by simpa using own⟩)
          intro i j buy sell buys
          simp only [RunState.book,absent] at buys
          cases buys
        · exact clear key (by simp) (by rw [← elsewhere key own]; exact open_)
    · have collects : ¬ (boundary.phase = .Continuous ∨ boundary.phase = .Closed) := apart
      rw [if_neg collects] at uncrosses
      obtain ⟨_,rfl⟩ := pure_eq_ok.mp uncrosses
      refine ⟨passed,fun key _ open_ => ?_⟩
      by_cases own : key.venue_id = venue
      · rw [own,here] at open_
        exact absurd open_ apart
      · exact clear key (by simp) (by rw [← elsewhere key own]; exact open_)
  have expired' := (expire_day_orders_meets venue boundary.phase).ok held.1.rebase expires
  have tells : (SimulationEvent.SessionPhaseChanged venue boundary.day boundary.phase).session_event =
    some (.Phase venue boundary.day boundary.phase) := rfl
  have closed := (record_close_meets (F := (Frame.rebase { F with steps := F.steps.insert venue (step + 1) } crossed).report
    [.Phase venue boundary.day boundary.phase]) has venue boundary).ok (expired'.report tells) closes
  exact closed.clear rfl held.1.books held.1.steps held.2

/-- Crossing every boundary due keeps the books clear, if the volume of every auction is in range. -/
theorem cross_boundaries_clear {time fuel : Nat} (in_time : time ≤ F.now) (inv : Inv F t)
    (fits : ∀ crossing ∈ crossings time fuel t, ∀ call ∈ crossing.calls, (call.2.run.book call.1).Fits)
    (ran : (cross_boundaries time fuel).run t = .ok () u)
    (clear : ClearBooks [] t.run) : ClearBooks [] u.run := by
  induction fuel generalizing F t with
  | zero =>
    cases ran
    exact clear
  | succ fuel ih =>
    simp only [cross_boundaries,returned] at ran
    unfold crossings at fits
    cases due : t.run.due_boundary time with
    | none =>
      rw [due] at ran
      cases ran
      exact clear
    | some found =>
      obtain ⟨venue,step,boundary⟩ := found
      rw [due] at ran fits
      simp only [bind_eq_ok] at ran fits
      obtain ⟨_,v,expires,_,w,crosses,later⟩ := ran
      rw [expires] at fits
      simp only [crosses] at fits
      have passes := inv.due in_time due
      have expired := ((expire_due_meets boundary.at_ns).ok inv expires).1
      have clear' : ClearBooks [] v.run :=
        ((expire_due_meets boundary.at_ns).ok inv.rebase expires).1.clear rfl inv.books inv.steps clear
      have crossed := (cross_boundary_meets opened passes).ok expired crosses
      refine ih (F := F.pass venue step boundary) opened in_time crossed
        (fun crossing member => fits crossing (List.mem_cons_of_mem _ member)) later ?_
      refine cross_boundary_clear opened expired passes (fun apart call member => ?_) crosses clear'
      refine fits _ List.mem_cons_self call ?_
      unfold Crossing.calls
      rw [if_pos apart]
      exact member

end Segments

section Steps
variable {s s' : RunState} {applied : Applied} {caught t : Transition} {time : Nat}

theorem catch_up_clear (sane : Sane s) (sweep : Bool) {payloads : List EventPayload}
    (quiet : ∀ payload ∈ payloads, payload.Quiet)
    (fits : ∀ u, (do
      let events ← on_simulation (SimulationState.catch_up time sweep)
      emit (events.map EventPayload.Simulation) : Engine Unit).run { run := s, payloads } = .ok () u →
        ∀ crossing ∈ crossings time u.run.boundaries_left u, ∀ call ∈ crossing.calls, (call.2.run.book call.1).Fits)
    (ran : (catch_up time sweep).run { run := s, payloads } = .ok () caught) (clear : ClearBooks [] s) :
    ClearBooks [] caught.run := by
  obtain ⟨acted,crossed,acts,crosses,expires⟩ := catch_up_pieces ran
  have none : False → s.setup.Cheap := False.elim
  obtain ⟨F,stage,due,fresh,inv,same⟩ :=
    (catch_up_actions sane none False.elim False.elim sweep quiet).ok rfl acts
  have clear_acted : ClearBooks [] acted.run := inv.clear stage.start (sane.inv 0).books fresh.2.symm clear
  have clear_crossed := cross_boundaries_clear due.opened (by rw [stage.now]) inv (fits acted acts) crosses clear_acted
  obtain ⟨G,_,_,later,_⟩ := (catch_up_boundaries stage due fresh inv same).ok rfl crosses
  exact ((expire_due_meets time).ok later.rebase expires).1.clear rfl later.books later.steps clear_crossed

theorem Input.clear {input : Input} (sane : Sane s) (ran : input.step.run s = .ok applied s') (fits : AuctionsFit s input)
    (clear : ClearBooks [] s) : ClearBooks [] s' := by
  obtain ⟨F,caught,t,halves⟩ := Input.halves sane ran
  have ready := halves.ready
  have clear_caught : ClearBooks [] caught.run := by
    refine catch_up_clear sane input.ticks (input.opens_quiet s) (fun u acts => ?_) halves.catches clear
    unfold AuctionsFit Input.crossings at fits
    rw [input.opens_eq s,acts] at fits
    exact fits
  obtain ⟨_,_,_,_,_,left⟩ := halves.stepped.leaves
  rw [left]
  change ClearBooks [] t.run
  cases halves.anew with
  | kept _ kept =>
    obtain ⟨_,_,inv⟩ := kept
    exact inv.clear rfl ready.inv.books ready.inv.steps clear_caught
  | ran _ _ _ _ inv _ => exact inv.clear rfl ready.inv.books ready.inv.steps clear_caught

end Steps

/-- In every run whose auctions have a volume in range, the books of a venue that trades continuously or is closed are
    not crossed. -/
theorem books_are_uncrossed {scenario : ScenarioDefinition} {s : RunState}
    (reachable : ReachableWhere AuctionsFit scenario s) {key : ListingKey} {listing : ListingState}
    (known : s.listings.get? key = some listing)
    (phase : s.session_phase key.venue_id = .Continuous ∨ s.session_phase key.venue_id = .Closed) {bid ask : Int}
    (best_bid : listing.book.best .Buy = some bid) (best_ask : listing.book.best .Sell = some ask) : bid < ask := by
  have clear : ClearBooks [] s := by
    refine reachable.keeps (P := ClearBooks []) (fun start opened key _ _ => ?_) fun s s' input applied before clear fits ran =>
      Input.clear before.sane ran fits clear
    rw [opened.book]
    intro i j buy sell buys
    cases buys
  have sound := (reachable.reachable.sane.inv 0).books key
  have here := clear key (by simp) phase
  rw [RunState.book_of_listing known] at sound here
  exact sound.clear_best here best_bid best_ask

/-- An auction leaves two lots bid; an offer above them rests. -/
theorem books_are_uncrossed_once_open : ∃ s listing, ReachableWhere AuctionsFit sample_days s ∧
    s.listings.get? ⟨1,1⟩ = some listing ∧ s.session_phase 1 = .Continuous ∧ listing.book.best .Buy = some 10 ∧
    listing.book.best .Sell = some 12 ∧ (10 : Int) < 12 := by
  obtain ⟨s,reachable,phase,listing,known,best_bid,best_ask⟩ := @play_reaches_where sample_days AuctionsFit sample_codec
    [ask 0 12 1 .ClockTick,place 1 13 7 1 .Buy 5 (.Limit 10),place 2 14 8 2 .Sell 3 (.Limit 8),ask 3 25 1 .ClockTick,
      place 4 26 9 2 .Sell 1 (.Limit 12)]
    (fun s => s.session_phase 1 = .Continuous ∧ ∃ listing, s.listings.get? ⟨1,1⟩ = some listing ∧
      listing.book.best .Buy = some 10 ∧ listing.book.best .Sell = some 12) (by decide +kernel)
  exact ⟨s,listing,reachable,known,phase,best_bid,best_ask,
    books_are_uncrossed reachable known (.inl phase) best_bid best_ask⟩

end Bunting
