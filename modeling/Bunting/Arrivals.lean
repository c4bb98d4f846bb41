import Bunting.Crossings
import Bunting.Traces

/-!
Where a step leaves the clock of a run, and what is due by it. A step catches up
with the time of its input. The operator's advance moves the clock on from there
and applies what is then due, but for the session boundaries.
-/

namespace Bunting
open Stateful

/-- No live order has expired by a time. -/
def Lasting (now : Nat) (run : RunState) : Prop :=
  ∀ id owned, run.ownership.get? id = some owned → owned.state = .Active → ∀ time ∈ owned.expires_at, now < time

section Lasting
variable {F : Frame} {t : Transition} {setup : Setup} {base : SimulationState} {now : Nat} {a b : Mode × Transition}

theorem Inv.lasting_iff (inv : Inv F t) (now : Nat) : Unexpired now t.run ↔ Lasting now t.run := by
  constructor
  · intro unexpired id owned found live time expires
    exact unexpired time id ((inv.records.orders.expiring time id).mpr ⟨owned,found,live,expires,by simp⟩)
  · intro lasting time id there
    obtain ⟨owned,found,live,expires,_⟩ := (inv.records.orders.expiring time id).mp there
    exact lasting id owned found live time expires

/-- An order is not accepted with an expiry that has passed. -/
theorem Screened.lasts {run : RunState} {listing : ListingState} {order : SubmitOrder} {key : ListingKey} {ticket : Ticket}
    (screened : Screened run listing order key now ticket) : ∀ time ∈ ticket.expires_at, now < time := by
  intro time expires
  have expiry := screened.expiry
  rw [Option.mem_def.mp expires] at expiry
  unfold TimeInForcePolicy.expiry at expiry
  split at expiry
  · split_ifs at expiry
    cases expiry
    omega
  · cases expiry

theorem Move.lasting (move : Move setup base now a b) (lasting : Lasting now a.2.run) : Lasting now b.2.run :=
  move.keeps_live lasting (fun _ _ lasts => lasts) fun _ _ _ _ screened _ _ => screened.lasts

theorem Moves.lasting (moves : Moves setup base now a b) (lasting : Lasting now a.2.run) : Lasting now b.2.run := by
  induction moves with
  | refl => exact lasting
  | tail _ move ih => exact move.lasting ih

/-- The moves from a point of a transition keep the live orders unexpired. -/
theorem Inv.lasting {u : Transition} (after : Inv F u) (starts : F.start = t) (lasting : Lasting F.now t.run) :
    Lasting F.now u.run := by
  have moves := after.moves
  rw [starts] at moves
  exact moves.lasting lasting

end Lasting

/-! ### Steps -/

/-- How far an input moves the clock on from its own time. -/
def Input.jump (s : RunState) : Input → Nat
  | .Command _ => 0
  | .Request request => request.payload.jump s.simulation.clock.step_ns

/-- Where a step leaves the clock and the sessions of a run. -/
structure Arrives (s : RunState) (input : Input) (applied : Applied) (s' : RunState) : Prop where
  now : s'.simulation.clock.now = input.logical_time + input.jump s
  upcoming : s'.simulation.Upcoming
  lasting : Lasting s'.simulation.clock.now s'
  calendar : s'.calendar = s.calendar
  crosses : Crosses s.calendar input.logical_time s.session_steps
    (applied.events.filterMap (fun event => event.payload.session_event)) s'.session_steps
  boundaries : s'.due_boundary input.logical_time = none

section Steps
variable {s s' : RunState} {applied : Applied} {caught t : Transition} {input : Input}

/-- The end of a step, from the frame that it has caught up in. -/
theorem Ready.arrives {F G : Frame} {market : OrdMap InstrumentId MarketProjection}
    {market_by_listing : OrdMap ListingKey MarketProjection} (ready : Ready s input.logical_time False False F caught)
    (inv : Inv G t) (setup : G.setup = F.setup) (steps : G.steps = F.steps) (sessions : G.sessions = F.sessions)
    (now : G.simulation.clock.now = input.logical_time + input.jump s) (upcoming : G.simulation.Upcoming)
    (lasting : Lasting G.simulation.clock.now t.run)
    (commits : s' = .committed t (s.sequence + 1) market market_by_listing)
    (payloads : applied.events.map EventEnvelope.payload = t.payloads) : Arrives s input applied s' := by
  obtain ⟨ownership,_,_,same,_⟩ := RunState.committed_eq t (s.sequence + 1) market market_by_listing
  have clock : s'.simulation.clock = G.simulation.clock := by rw [commits,same,← inv.simulation]
  have calendar : s'.calendar = s.calendar := by
    rw [commits,same]
    change t.run.calendar = s.calendar
    rw [inv.calendar,setup,ready.stage.setup]
    rfl
  have passed : s'.session_steps = F.steps := by
    rw [commits,same]
    exact inv.steps.trans steps
  have told : applied.events.filterMap (fun event => event.payload.session_event) = F.sessions := by
    rw [← sessions,← inv.emitted.sessions,← payloads,List.filterMap_map]
    rfl
  refine ⟨by rw [clock,now],?_,?_,calendar,?_,?_⟩
  · unfold SimulationState.Upcoming
    rw [clock,commits,same]
    change ∀ action ∈ t.run.simulation.scheduled_actions, _
    rw [inv.simulation]
    exact upcoming
  · rw [clock,commits]
    exact fun id owned found live => lasting id owned (RunState.committed_get? found) live
  · rw [told,passed]
    exact ready.caught.sessions
  · have days : s'.calendar = caught.run.calendar := by
      rw [calendar,ready.inv.calendar,ready.stage.setup]
      rfl
    rw [due_boundary_congr days (passed.trans ready.inv.steps.symm)]
    exact ready.boundaries

theorem Ready.upcoming {F : Frame} {time : Nat} {covered valued : Prop} (ready : Ready s time covered valued F t)
    (sane : Sane s) : F.simulation.Upcoming := by
  unfold SimulationState.Upcoming
  rw [ready.caught.actions,ready.caught.clock]
  exact upcoming_dropWhile sane.sound.sorted time

theorem Input.jump_of_flow (flow : input.order_flow = true) : input.jump s = 0 := by
  cases input with
  | Command => rfl
  | Request request =>
    change request.payload.direct = true at flow
    change request.payload.jump s.simulation.clock.step_ns = 0
    cases payload : request.payload <;> first | rfl | (rw [payload] at flow; cases flow)

theorem Input.arrives (sane : Sane s) (ran : input.step.run s = .ok applied s') :
    Arrives s input applied s' := by
  obtain ⟨F,caught,t,halves⟩ := Input.halves sane ran
  have ready := halves.ready
  obtain ⟨market,market_by_listing,commits⟩ := halves.commits
  have now : F.simulation.clock.now = input.logical_time := by rw [ready.caught.clock]
  cases halves.anew with
  | kept flow kept =>
    obtain ⟨mode,_,inv⟩ := kept
    refine ready.arrives (F := F) inv rfl rfl rfl ?_ (ready.upcoming sane) ?_ commits halves.payloads
    · rw [Input.jump_of_flow flow,Nat.add_zero]
      exact now
    · have lasting : Lasting F.now caught.run := by
        rw [ready.stage.now]
        exact (ready.inv.lasting_iff _).mp ready.unexpired
      change Lasting F.simulation.clock.now t.run
      rw [now,← ready.stage.now]
      exact inv.lasting rfl lasting
  | @ran request _ w _ _ runs _ inv unexpired =>
    have posted := Ran.posted ready.inv (ready.standing sane) runs
    have before : caught.run.simulation.clock = { s.simulation.clock with now := request.logical_time } := by
      rw [ready.inv.simulation,ready.caught.clock]
      rfl
    have upcoming := posted.upcoming (by
      change caught.run.simulation.Upcoming
      rw [ready.inv.simulation]
      exact ready.upcoming sane)
    refine ready.arrives (F := F) inv rfl rfl rfl ?_ upcoming ((inv.lasting_iff _).mp unexpired) commits halves.payloads
    have moved := posted.now
    simp only [before,ready.caught.clock] at moved
    exact moved

end Steps

/-! ### What is due -/

/-- Nothing due is left: no scheduled action, expiry of a live order or session boundary to cross is at or before the run
    clock. -/
structure Punctual (run : RunState) : Prop where
  actions : ∀ action ∈ run.simulation.scheduled_actions, run.simulation.clock.now < action.effective_at
  orders : ∀ id owned time, run.ownership.get? id = some owned → owned.state = .Active → owned.expires_at = some time →
    run.simulation.clock.now < time
  boundaries : ∀ calendar venue step later boundary, run.calendar = some calendar →
    run.session_steps.get? venue = some step → step ≤ later → calendar.boundary venue later = some boundary →
    run.simulation.clock.now < boundary.at_ns

/-- The input advances the clock past a session boundary that the run has yet to cross. -/
def Skips (s : RunState) (input : Input) : Prop :=
  ∃ calendar ∈ s.calendar, ∃ entry ∈ s.session_steps.entries,
    ∃ later ∈ List.range (BOUNDARIES_PER_DAY * calendar.days), entry.2 ≤ later ∧
      ∃ boundary ∈ calendar.boundary entry.1 later,
        input.logical_time < boundary.at_ns ∧ boundary.at_ns ≤ input.logical_time + input.jump s

instance (s : RunState) (input : Input) : Decidable (Skips s input) := by
  unfold Skips
  infer_instance

/-- The boundaries of a step find the orders in their books. A boundary is later than the clock the step started at, if
    orders were live then; an order that is live as it comes up, and does not expire by it, is still in its book when
    the auction there is called. -/
def KeepsOrders (s : RunState) (input : Input) : Prop :=
  ∀ crossing ∈ input.crossings s,
    (∀ id owned, s.ownership.get? id = some owned → owned.state = .Active →
      s.simulation.clock.now < crossing.boundary.at_ns) ∧
    ∀ id owned, crossing.before.run.ownership.get? id = some owned → owned.state = .Active →
      (∀ time ∈ owned.expires_at, crossing.boundary.at_ns < time) →
      ∀ call ∈ crossing.calls, call.1 = owned.listing_key →
        (call.2.run.book call.1).view.get? id = some owned.resting

section Due
variable {scenario : ScenarioDefinition} {s s' : RunState} {input : Input} {applied : Applied} {calendar : Calendar}
  {events : List SessionEvent} {venue : VenueId} {call : ListingKey × Transition}

theorem Reachable.calendar_valid (reachable : Reachable scenario s) (has : s.calendar = some calendar) :
    calendar.is_valid scenario.venues = true := by
  obtain ⟨start,opened,same⟩ := reachable.opened
  have kept : s.calendar = start.calendar := congrArg Setup.calendar same
  exact opened.checked.calendar calendar (by rw [← opened.calendar,← kept]; exact has)

/-- A venue is where crossing has taken it from an earlier step. -/
theorem Crosses.origin {calendar : Option Calendar} {time step' : Nat} {steps steps' : OrdMap VenueId Nat}
    (crosses : Crosses calendar time steps events steps') (at_step : steps'.get? venue = some step') : ∃ step, steps.get? venue = some step ∧ step ≤ step' := by
  induction crosses with
  | done => exact ⟨step',at_step,le_rfl⟩
  | @cross steps v step boundary events steps' next due rest ih =>
    obtain ⟨_,_,here,_⟩ := RunState.next_crossing_some next
    obtain ⟨between,found,le⟩ := ih at_step
    rw [OrdMap.get?_insert] at found
    split_ifs at found with same
    · cases found
      exact ⟨step,same ▸ here,by omega⟩
    · exact ⟨between,found,le⟩

/-- Crossing the boundaries due takes no venue past one that is not. -/
theorem Crosses.not_past {time : Nat} {steps steps' : OrdMap VenueId Nat}
    (crosses : Crosses (some calendar) time steps events steps') {step later : Nat} {boundary : Boundary}
    (at_step : steps.get? venue = some step) (le : step ≤ later) (found : calendar.boundary venue later = some boundary)
    (late : time < boundary.at_ns) : ∃ step', steps'.get? venue = some step' ∧ step' ≤ later := by
  induction crosses generalizing step with
  | done => exact ⟨step,at_step,le⟩
  | @cross steps v here b events steps' next due rest ih =>
    obtain ⟨c,has,there,crosses,_⟩ := RunState.next_crossing_some next
    simp only at there crosses
    cases has
    by_cases same : venue = v
    · subst same
      cases there.symm.trans at_step
      have before : here ≠ later := by
        rintro rfl
        cases crosses.symm.trans found
        omega
      exact ih (OrdMap.get?_insert_self _ _ _) (by omega)
    · exact ih (by rw [OrdMap.get?_insert_of_ne same]; exact at_step) le

theorem skips_iff : Skips s input ↔ ∃ calendar venue step later boundary, s.calendar = some calendar ∧
    s.session_steps.get? venue = some step ∧ step ≤ later ∧ calendar.boundary venue later = some boundary ∧
    input.logical_time < boundary.at_ns ∧ boundary.at_ns ≤ input.logical_time + input.jump s := by
  constructor
  · rintro ⟨calendar,has,entry,at_step,later,_,le,boundary,found,after,reached⟩
    exact ⟨calendar,entry.1,entry.2,later,boundary,has,OrdMap.get?_eq_some_iff.mpr at_step,le,found,after,reached⟩
  · rintro ⟨calendar,venue,step,later,boundary,has,at_step,le,found,after,reached⟩
    exact ⟨calendar,has,(venue,step),OrdMap.get?_eq_some_iff.mp at_step,later,
      List.mem_range.mpr (Calendar.step_lt_of_boundary found),le,boundary,found,after,reached⟩

/-- What is left due after a step is the boundaries that an advance skipped. -/
theorem Arrives.punctual_iff (arrives : Arrives s input applied s')
    (valid : ∀ calendar, s.calendar = some calendar → calendar.is_valid scenario.venues = true) :
    Punctual s' ↔ ¬ Skips s input := by
  rw [skips_iff]
  constructor
  · rintro punctual ⟨calendar,venue,step,later,boundary,has,at_step,le,found,after,reached⟩
    have crosses := arrives.crosses
    rw [has] at crosses
    obtain ⟨step',at_step',le'⟩ := crosses.not_past at_step le found after
    have ahead := punctual.boundaries calendar venue step' later boundary (arrives.calendar.trans has) at_step' le' found
    rw [arrives.now] at ahead
    omega
  · intro none
    refine ⟨arrives.upcoming,fun id owned time found live expires => arrives.lasting id owned found live time expires,?_⟩
    intro calendar venue step' later boundary has at_step' le found
    obtain ⟨step,at_step,before⟩ := arrives.crosses.origin at_step'
    have has' := arrives.calendar.symm.trans has
    -- The venue's own next boundary is not due, and this one is no earlier.
    obtain ⟨first,next⟩ := Calendar.boundary_of_le (valid calendar has') le found
    have ahead := RunState.due_boundary_eq_none_iff.mp arrives.boundaries calendar venue step' first has at_step' next
    have later := Calendar.boundary_le (valid calendar has') le next found
    rw [arrives.now]
    by_contra reached
    exact none ⟨calendar,venue,step,_,boundary,has',at_step,before.trans le,found,ahead.trans_le later,by omega⟩

/-! ### Orders at a boundary -/

/-- The auctions of the other listings leave a book as it was. -/
theorem auction_calls_book {F : Frame} {t : Transition} {keys : List ListingKey} (opened : F.mode = .Open) (inv : Inv F t)
    (distinct : keys.Nodup) (listed : ∀ key ∈ keys, F.setup.definitions.contains key = true) (member : call ∈ auction_calls keys t) :
    call.1 ∈ keys ∧ call.2.run.book call.1 = t.run.book call.1 := by
  induction keys generalizing t with
  | nil => cases member
  | cons key rest ih =>
    obtain ⟨fresh,distinct⟩ := List.nodup_cons.mp distinct
    rcases List.mem_cons.mp member with rfl | later
    · exact ⟨List.mem_cons_self,rfl⟩
    · split at later
      · next u ran =>
        obtain ⟨inv',auctioned⟩ := auction_call opened (inv.touch _) (listed key List.mem_cons_self) ran
        obtain ⟨inside,same⟩ := ih inv' distinct (fun j there => listed j (List.mem_cons_of_mem _ there)) later
        have other : call.1 ≠ key := fun here => fresh (here ▸ inside)
        exact ⟨List.mem_cons_of_mem _ inside,same.trans (auctioned.others _ other)⟩
      · cases later

theorem Crossing.Framed.holds {crossing : Crossing} {F : Frame} (framed : crossing.Framed F) {id : OrderId}
    {owned : OwnedOrder} (found : crossing.before.run.ownership.get? id = some owned) (live : owned.state = .Active)
    (late : ∀ time ∈ owned.expires_at, crossing.boundary.at_ns < time)
    (member : call ∈ crossing.calls) (here : call.1 = owned.listing_key) :
    (call.2.run.book call.1).view.get? id = some owned.resting := by
  have spared := (expire_loop_meets _ _ _).ok ⟨framed.inv,Nat.lt_succ_self _,fun _ _ found _ _ => found⟩ framed.expires
  have kept := spared.2.2 id owned found live late
  have inv := ((expire_due_meets crossing.boundary.at_ns).ok framed.inv framed.expires).1
  have rests := inv.records.orders.rests kept live (by simp)
  unfold Crossing.calls at member
  split_ifs at member
  · have passed : Inv { F with steps := F.steps.insert crossing.venue (crossing.step + 1) }
        (crossing.expired.pass crossing.venue crossing.step) := inv.pass framed.due
    have opened : Frame.mode { F with steps := F.steps.insert crossing.venue (crossing.step + 1) } = .Open := framed.opened
    have listed : ∀ key ∈ crossing.expired.run.venue_listings crossing.venue, F.setup.definitions.contains key = true := by
      intro key there
      obtain ⟨listing,known⟩ := OrdMap.mem_keys.mp (List.mem_filter.mp there).1
      rw [← inv.setup]
      exact OrdMap.contains_iff.mpr ⟨_,RunState.definition_of_listing known⟩
    have distinct : (crossing.expired.run.venue_listings crossing.venue).Nodup :=
      (OrdMap.keys_nodup crossing.expired.run.listings).filter _
    obtain ⟨_,same⟩ := auction_calls_book opened passed distinct listed member
    rw [same,here]
    exact rests
  · cases member

theorem Punctual.keeps_orders (sane : Sane s) (punctual : Punctual s ∨ s.ownership = ∅) : KeepsOrders s input := by
  intro crossing member
  obtain ⟨F,framed,setup,step,at_step,le⟩ := Input.crossing_framed sane member
  refine ⟨fun id owned found live => ?_,fun id owned found live late call there here =>
    framed.holds found live late there here⟩
  rcases punctual with punctual | none
  · obtain ⟨calendar,has,crosses⟩ := framed.due.passes
    rw [setup] at has
    exact punctual.boundaries calendar crossing.venue step crossing.step crossing.boundary has at_step le crosses
  · rw [none] at found
    cases found

end Due

/-- In every run in which no advance has skipped a session boundary: a step leaves nothing due, and its boundaries find
    the orders in their books, exactly if it does not skip one either. -/
theorem nothing_due_is_left {scenario : ScenarioDefinition} {s s' : RunState} {input : Input} {applied : Applied}
    (reachable : ReachableWhere (fun s input => ¬ Skips s input) scenario s) (ran : input.step.run s = .ok applied s') :
    (Punctual s' ∧ KeepsOrders s input) ↔ ¬ Skips s input := by
  have punctual : Punctual s ∨ s.ownership = ∅ := by
    refine reachable.keeps (P := fun s => Punctual s ∨ s.ownership = ∅) (fun start opened => .inr opened.fresh.1)
      fun s s' input applied before _ allowed ran => .inl ?_
    exact ((Input.arrives before.sane ran).punctual_iff fun calendar has => before.calendar_valid has).mpr allowed
  have before := reachable.reachable
  have left := (Input.arrives before.sane ran).punctual_iff fun calendar has => before.calendar_valid has
  exact ⟨fun holds => left.mp holds.1,fun allowed => ⟨left.mpr allowed,Punctual.keeps_orders before.sane punctual⟩⟩

/-- An order good till after the open is in the book when the opening auction is called. -/
theorem nothing_due_is_left_at_the_open : ∃ s applied s',
    ReachableWhere (fun s input => ¬ Skips s input) sample_days s ∧
    (ask 2 25 1 .ClockTick).step.run s = .ok applied s' ∧ ((ask 2 25 1 .ClockTick).crossings s).length = 1 ∧
    ¬ Skips s (ask 2 25 1 .ClockTick) ∧ Punctual s' ∧ KeepsOrders s (ask 2 25 1 .ClockTick) := by
  obtain ⟨s,reachable,one,allowed,applied,s',ran,_⟩ := @play_reaches_where sample_days (fun s input => ¬ Skips s input)
    sample_codec [ask 0 12 1 .ClockTick,place 1 13 7 1 .Buy 5 (.LimitWithPolicy 10 (.Gtd 22) false none)]
    (fun s => ((ask 2 25 1 .ClockTick).crossings s).length = 1 ∧ ¬ Skips s (ask 2 25 1 .ClockTick) ∧
      ∃ applied s', (ask 2 25 1 .ClockTick).step.run s = .ok applied s' ∧ True) (by decide +kernel)
  exact ⟨s,applied,s',reachable,ran,one,allowed,(nothing_due_is_left reachable ran).mpr allowed⟩

/-- An advance leaves the clock past the first boundary of a venue that has crossed none. -/
theorem advance_leaves_boundaries_due : ∃ s applied s', Reachable sample_days s ∧
    (ask 0 5 1 (.Advance 1)).step.run s = .ok applied s' ∧ ¬ Punctual s' := by
  obtain ⟨s,applied,s',reachable,ran,passed,at_step,has⟩ := @play_steps sample_days sample_codec [] (ask 0 5 1 (.Advance 1))
    (fun _ _ s' => 10 ≤ s'.simulation.clock.now ∧ s'.session_steps.get? 1 = some 0 ∧
      s'.calendar = sample_days.calendar) (by decide +kernel)
  refine ⟨s,applied,s',reachable,ran,fun punctual => ?_⟩
  have ahead : s'.simulation.clock.now < 10 := punctual.boundaries _ 1 0 0 ⟨10,.PreOpen,0⟩ has at_step le_rfl (by decide)
  omega

end Bunting
