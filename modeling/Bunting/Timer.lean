import Bunting.Facilities

/-!
The venue timer. It ticks at the time at which something falls due next. A tick
leaves nothing due at its time, and no later step brings anything back to it;
and catching up ends, although its loops have no bound in the source.
-/

namespace Bunting
open Stateful

def earliest (times : List (Option Nat)) : Option Nat := (times.filterMap id).min?

/-- The earliest time at which an action is due or an open tender or negotiation expires. -/
def SimulationState.next_due (sim : SimulationState) : Option Nat :=
  let action := sim.scheduled_actions.head?.map ScheduledAction.effective_at
  let tender := ((sim.tenders.values.filter (fun tender => tender.status = .open)).map TenderState.expires_at).min?
  let otc := ((sim.otc.values.filter (fun otc => otc.status.negotiable)).map OtcState.expires_at).min?
  earliest [action,tender,otc]

/-- The earliest time at which something of a run is due. -/
def RunState.next_due (run : RunState) : Option Nat :=
  let gtd := run.expiries.first?.map (fun expiry => (ofLex expiry.1).1)
  let session := run.next_boundary.map (fun next => next.2.2.at_ns)
  earliest [run.simulation.next_due,gtd,session]

/-- The tenders and negotiations still open expire after a time. -/
structure DealsAhead (time : Nat) (sim : SimulationState) : Prop where
  tenders : ∀ id tender, sim.tenders.get? id = some tender → tender.status = .open → time < tender.expires_at
  otc : ∀ id otc, sim.otc.get? id = some otc → otc.status.negotiable = true → time < otc.expires_at

/-- Everything of a run falls due after a time. -/
structure Ahead (time : Nat) (run : RunState) : Prop where
  actions : ∀ action ∈ run.simulation.scheduled_actions, time < action.effective_at
  deals : DealsAhead time run.simulation
  orders : Unexpired time run
  boundaries : run.due_boundary time = none

section Due
variable {time : Nat} {run : RunState} {due : Nat}

theorem lt_min? {times : List Nat} (least : times.min? = some due) (later : ∀ other ∈ times, time < other) :
    time < due := later due (List.min?_mem least)

theorem lt_earliest {times : List (Option Nat)} (least : earliest times = some due)
    (later : ∀ other, some other ∈ times → time < other) : time < due :=
  lt_min? least fun other member => later other (by simpa using member)

theorem SimulationState.lt_next_due {sim : SimulationState}
    (actions : ∀ action ∈ sim.scheduled_actions, time < action.effective_at)
    (deals : DealsAhead time sim) (next : sim.next_due = some due) : time < due := by
  refine lt_earliest next fun other member => ?_
  simp only [List.mem_cons,List.not_mem_nil,or_false] at member
  rcases member with same | same | same
  · obtain ⟨action,first,rfl⟩ := Option.map_eq_some_iff.mp same.symm
    exact actions action (List.mem_of_mem_head? first)
  · refine lt_min? same.symm fun time' there => ?_
    obtain ⟨tender,member,rfl⟩ := List.mem_map.mp there
    obtain ⟨inside,status⟩ := List.mem_filter.mp member
    obtain ⟨id,found⟩ := OrdMap.mem_values.mp inside
    exact deals.tenders id tender found (of_decide_eq_true status)
  · refine lt_min? same.symm fun time' there => ?_
    obtain ⟨otc,member,rfl⟩ := List.mem_map.mp there
    obtain ⟨inside,status⟩ := List.mem_filter.mp member
    obtain ⟨id,found⟩ := OrdMap.mem_values.mp inside
    exact deals.otc id otc found status

theorem Ahead.lt_next_due (ahead : Ahead time run) (next : run.next_due = some due) : time < due := by
  refine lt_earliest next fun other member => ?_
  simp only [List.mem_cons,List.not_mem_nil,or_false] at member
  rcases member with same | same | same
  · exact SimulationState.lt_next_due ahead.actions ahead.deals same.symm
  · obtain ⟨⟨expiry,_⟩,first,rfl⟩ := Option.map_eq_some_iff.mp same.symm
    exact ahead.orders _ _ (OrdMap.contains_iff.mpr ⟨_,OrdMap.get?_of_first? first⟩)
  · obtain ⟨boundary,first,rfl⟩ := Option.map_eq_some_iff.mp same.symm
    have due := ahead.boundaries
    rw [RunState.due_boundary,first] at due
    by_contra reached
    simp [Option.filter,not_lt.mp reached] at due

end Due

section Deals
variable {time now : Nat} {sim sim' : SimulationState} {events : List SimulationEvent}

theorem SimulationState.catch_up_swept {w w' : World}
    (ran : (SimulationState.catch_up time true).run w = .ok events w') : DealsAhead time w'.sim := by
  simp only [SimulationState.catch_up,SimulationState.sweep_expired,modify_sim,returned,if_true] at ran
  obtain ⟨_,_,u,_,rfl,rfl⟩ := ran
  refine ⟨fun id tender found status => ?_,fun id otc found status => ?_⟩
  · simp only [OrdMap.get?_mapValues] at found
    obtain ⟨before,_,rfl⟩ := Option.map_eq_some_iff.mp found
    split_ifs at status ⊢ with lapsed
    simp only [TenderState.lapsed,decide_eq_true_eq,not_and,not_le] at lapsed
    exact lapsed status
  · simp only [OrdMap.get?_mapValues] at found
    obtain ⟨before,_,rfl⟩ := Option.map_eq_some_iff.mp found
    split_ifs at status ⊢ with lapsed
    · cases status
    · simp only [OtcState.lapsed,decide_eq_true_eq,not_and,not_le] at lapsed
      exact lapsed status

theorem Lapses.deals_ahead (lapses : Lapses sim sim') (ahead : DealsAhead time sim) : DealsAhead time sim' :=
  ⟨fun id _ found status => ahead.tenders id _ (lapses.tender_open found status) status,
    fun id _ found status => ahead.otc id _ (lapses.otc_open found status) status⟩

theorem DealsAhead.put_tender (ahead : DealsAhead time sim) {id : TenderId} {tender : TenderState}
    (tenders : sim'.tenders = sim.tenders.insert id tender) (otcs : sim'.otc = sim.otc)
    (later : tender.status = .open → time < tender.expires_at) : DealsAhead time sim' := by
  refine ⟨?_,fun other there found => ahead.otc other there (otcs ▸ found)⟩
  rw [tenders]
  exact fun _ _ found => OrdMap.of_insert found later ahead.tenders

theorem DealsAhead.put_otc (ahead : DealsAhead time sim) {id : NegotiationId} {otc : OtcState}
    (otcs : sim'.otc = sim.otc.insert id otc) (tenders : sim'.tenders = sim.tenders)
    (later : otc.status.negotiable = true → time < otc.expires_at) : DealsAhead time sim' := by
  refine ⟨fun other there found => ahead.tenders other there (tenders ▸ found),?_⟩
  rw [otcs]
  exact fun _ _ found => OrdMap.of_insert found later ahead.otc

/-- What is opened at a time expires after it. -/
theorem Bargain.deals_ahead {actor : ParticipantId} {command : SimulationCommand}
    (bargain : Bargain actor now sim command events sim') (in_time : time ≤ now) (ahead : DealsAhead time sim) :
    DealsAhead time sim' := by
  cases bargain with
  | quiet _ _ lapses => exact lapses.deals_ahead ahead
  | open_tender later _ tenders otcs => exact ahead.put_tender tenders otcs fun _ => in_time.trans_lt later
  | decide_tender found _ status _ tenders otcs =>
    have later := ahead.tenders _ _ found status
    exact ahead.put_tender tenders otcs fun _ => later
  | open_otc later _ _ otcs tenders => exact ahead.put_otc otcs tenders fun _ => in_time.trans_lt later
  | counter_otc found _ status _ otcs tenders | decide_otc found _ status _ otcs tenders =>
    have later := ahead.otc _ _ found status
    exact ahead.put_otc otcs tenders fun _ => later

end Deals

section Steps
variable {s s' : RunState} {input : Input} {applied : Applied} {time : Nat}

theorem Input.in_time (ran : input.step.run s = .ok applied s') : s.simulation.clock.now ≤ input.logical_time := by
  cases input with
  | Command command =>
    obtain ⟨caught,t,applies⟩ := apply_ok ran
    exact applies.in_time
  | Request request =>
    obtain ⟨announced,caught,t,simulates⟩ := apply_simulation_ok ran
    exact simulates.in_time

theorem Input.deals_ahead (sane : Sane s) (ran : input.step.run s = .ok applied s') (in_time : time ≤ s.simulation.clock.now)
    (ahead : DealsAhead time s.simulation) : DealsAhead time s'.simulation := by
  have later := in_time.trans (Input.in_time ran)
  obtain ⟨mid,lapses,bargains⟩ := Input.bargains sane ran
  have before := lapses.deals_ahead ahead
  rcases bargains with ⟨again,_⟩ | ⟨request,events,rfl,bargain,_⟩
  · exact again.deals_ahead before
  · exact bargain.deals_ahead later before

/-- Where a step leaves a run, everything but the deals is ahead of the times that the step started after. -/
theorem Arrives.ahead (sane : Sane s') (arrives : Arrives s input applied s') (in_time : time ≤ input.logical_time)
    (deals : DealsAhead time s'.simulation) : Ahead time s' := by
  have reached : time ≤ s'.simulation.clock.now := by
    rw [arrives.now]
    omega
  refine ⟨fun action member => reached.trans_lt (arrives.upcoming action member),deals,fun due id there => ?_,?_⟩
  · exact reached.trans_lt ((((sane.inv 0).lasting_iff _).mpr arrives.lasting) due id there)
  · refine RunState.due_boundary_eq_none_iff.mpr fun calendar venue step boundary has at_step found => ?_
    exact in_time.trans_lt
      (RunState.due_boundary_eq_none_iff.mp arrives.boundaries calendar venue step boundary has at_step found)

/-- A step brings nothing back to a time that the clock has reached. -/
theorem Ahead.step (ahead : Ahead time s) (sane : Sane s) (in_time : time ≤ s.simulation.clock.now)
    (ran : input.step.run s = .ok applied s') : Ahead time s' ∧ time ≤ s'.simulation.clock.now := by
  have arrives := Input.arrives sane ran
  have later := in_time.trans (Input.in_time ran)
  obtain ⟨_,stepped⟩ := Input.stepped sane ran
  refine ⟨arrives.ahead stepped.sane later (Input.deals_ahead sane ran in_time ahead.deals),?_⟩
  rw [arrives.now]
  omega

theorem Ahead.runs {later : RunState} {history : List (Input × Applied)} (ahead : Ahead time s) (sane : Sane s)
    (in_time : time ≤ s.simulation.clock.now) (runs : Runs s history later) :
    Ahead time later ∧ time ≤ later.simulation.clock.now := by
  induction runs with
  | nil => exact ⟨ahead,in_time⟩
  | step before ran ih => exact ih.1.step (before.sane sane) ih.2 ran

theorem tick_ahead {request : SimulationCommandRequest} (sane : Sane s) (tick : request.payload = .ClockTick)
    (ran : (Input.Request request).step.run s = .ok applied s') :
    Ahead request.logical_time s' ∧ request.logical_time ≤ s'.simulation.clock.now := by
  have arrives := Input.arrives sane ran
  obtain ⟨_,stepped⟩ := Input.stepped sane ran
  refine ⟨arrives.ahead stepped.sane (le_refl _) ?_,by rw [arrives.now]; exact Nat.le_add_right _ _⟩
  obtain ⟨F,caught,t,halves⟩ := Input.halves sane ran
  have catches := halves.catches
  rw [Input.ticks,decide_eq_true tick] at catches
  obtain ⟨events,w,swept,same⟩ := catch_up_simulation sane (Input.opens_quiet _ s) catches
  have deals := SimulationState.catch_up_swept swept
  cases halves.goes with
  | kept _ kept =>
    obtain ⟨_,_,inv⟩ := kept
    have kept := halves.stepped.same_deals
    rw [inv.simulation] at kept
    change SameDeals F.simulation _ at kept
    rw [← halves.ready.inv.simulation,same] at kept
    exact kept.lapses.deals_ahead deals
  | ran _ direct =>
    rw [tick] at direct
    cases direct

end Steps

/-! ### Loops -/

/-- A round of the loop that cancels the orders expired by a time: the first of them is canceled. -/
def expiry_round (now : Nat) (t : Transition) : Option (Behaviour Fault Transition) :=
  match t.run.expiries.first? with
  | none => none
  | some (expiry,_) =>
    if (ofLex expiry).1 > now then none
    else some (.of (do
      let owned ← orElse (t.run.ownership.get? (ofLex expiry).2) (Fault.plain .OwnershipInvariant)
      touch owned.listing_key
      cancel (ofLex expiry).2 .Expired))

/-- The orders expired by a time, one after another as long as there is one. -/
def Expires (now : Nat) : Behaviour Fault Transition := .While (expiry_round now)

/-- A round of the loop over the session boundaries due. -/
def boundary_round (time : Nat) (t : Transition) : Option (Behaviour Fault Transition) :=
  (t.run.due_boundary time).map (fun next =>
    .Seq (Expires next.2.2.at_ns) (.of (cross_boundary next.1 next.2.1 next.2.2)))

/-- Catching up, with its loops as the source has them: without a bound. -/
def CatchesUp (time : Nat) (sweep : Bool) : Behaviour Fault Transition :=
  .Seq (.of (do
      let events ← on_simulation (SimulationState.catch_up time sweep)
      emit (events.map EventPayload.Simulation)))
    (.Seq (.While (boundary_round time)) (Expires time))

section Loops
variable {F : Frame} {t : Transition} {s : RunState}

theorem expire_loop_none {now fuel : Nat} (ended : expiry_round now t = none) :
    (expire_loop now (fuel + 1)).run t = .ok () t := by
  unfold expiry_round at ended
  unfold expire_loop
  rw [EStateM.run_bind]
  simp only [EStateM.run_get]
  rcases first : t.run.expiries.first? with _ | ⟨expiry,_⟩
  · rfl
  · simp only [first] at ended
    split_ifs at ended with late
    simp only [if_pos late]
    rfl

theorem expire_loop_some {now fuel : Nat} {body : Behaviour Fault Transition} (next : expiry_round now t = some body) :
    ∃ id, body = .of (do
        let owned ← orElse (t.run.ownership.get? id) (Fault.plain .OwnershipInvariant)
        touch owned.listing_key
        cancel id .Expired) ∧
      (expire_loop now (fuel + 1)).run t = ((do
        let owned ← orElse (t.run.ownership.get? id) (Fault.plain .OwnershipInvariant)
        touch owned.listing_key
        cancel id .Expired) >>= fun _ => expire_loop now fuel).run t ∧
      ∃ time, t.run.expiries.contains (toLex (time,id)) = true := by
  unfold expiry_round at next
  split at next
  · cases next
  · next expiry _ first =>
    split_ifs at next with late
    cases next
    refine ⟨_,rfl,?_,(ofLex expiry).1,OrdMap.contains_iff.mpr ⟨_,OrdMap.get?_of_first? first⟩⟩
    rw [expire_loop,EStateM.run_bind]
    simp only [EStateM.run_get,first,if_neg late,bind_assoc]

theorem expire_due_ends (inv : Inv F t) (now : Nat) : Expires now t ((expire_due now).run t) := by
  refine @Behaviour.While.bounded _ _ (expiry_round now) t (expire_loop now)
    (fun n u => Inv F u ∧ u.run.expiries.size < n) (fun u small => absurd small.2 (Nat.not_lt_zero _))
    (fun n u _ ended => expire_loop_none ended) (fun n u body holds next => ?_) _ ⟨inv,Nat.lt_succ_self _⟩
  obtain ⟨id,rfl,same,time,expires⟩ := @expire_loop_some _ now n _ next
  refine ⟨_,same,rfl,fun v ran => ?_⟩
  simp only [returned,touch] at ran
  obtain ⟨owned,found,cancels⟩ := ran
  obtain ⟨owned',found',_,inv',_,dropped⟩ := cancel_ok (holds.1.touch _) cancels
  obtain ⟨owner,there,_,at_time,_⟩ := (holds.1.records.orders.expiring time id).mp expires
  cases there.symm.trans found'
  have fewer := OrdMap.size_erase expires
  have small := holds.2
  refine ⟨inv',?_⟩
  rw [dropped,drop_expiry,at_time]
  change (u.run.expiries.erase (toLex (time,id))).size < n
  omega

theorem cross_boundaries_ends (time : Nat) (opened : F.mode = .Open) (in_time : time ≤ F.now) (inv : Inv F t) :
    Behaviour.While (boundary_round time) t ((cross_boundaries time t.run.boundaries_left).run t) := by
  refine @Behaviour.While.bounded _ _ (boundary_round time) t (cross_boundaries time)
    (fun n u => ∃ F : Frame, F.mode = .Open ∧ time ≤ F.now ∧ Inv F u ∧ u.run.boundaries_left ≤ n) (fun u holds => ?_)
    (fun n u _ ended => cross_boundaries_none (Option.map_eq_none_iff.mp ended) _) (fun n u body holds next => ?_) _
    ⟨F,opened,in_time,inv,le_refl _⟩
  · obtain ⟨F,opened,in_time,inv,left⟩ := holds
    obtain ⟨_,_,_,_,none⟩ := (cross_boundaries_meets time 0 F opened in_time).ok ⟨inv,left⟩ rfl
    exact ⟨by rw [boundary_round,none]; rfl,rfl⟩
  · obtain ⟨F,opened,in_time,inv,left⟩ := holds
    obtain ⟨⟨venue,step,boundary⟩,due,rfl⟩ := Option.map_eq_some_iff.mp next
    refine ⟨expire_due boundary.at_ns >>= fun _ => cross_boundary venue step boundary,?_,
      Behaviour.Seq.run (expire_due_ends inv _) fun _ _ => rfl,fun v ran => ?_⟩
    · rw [cross_boundaries,EStateM.run_bind]
      simp only [EStateM.run_get,due,bind_assoc]
    · obtain ⟨passed,fewer⟩ := (boundary_meets opened in_time inv due).ok rfl ran
      exact ⟨F.pass venue step boundary,opened,in_time,passed,by omega⟩

theorem catch_up_ends (sane : Sane s) (time : Nat) (sweep : Bool) {payloads : List EventPayload}
    (quiet : ∀ payload ∈ payloads, payload.Quiet) :
    CatchesUp time sweep { run := s, payloads } ((catch_up time sweep).run { run := s, payloads }) := by
  have split : catch_up time sweep = (do
      let events ← on_simulation (SimulationState.catch_up time sweep)
      emit (events.map EventPayload.Simulation)) >>= fun _ => (do
        let t ← get
        cross_boundaries time t.run.boundaries_left
        expire_due time) := by
    rw [catch_up,bind_assoc]
  rw [split]
  refine Behaviour.Seq.run rfl fun t acts => ?_
  obtain ⟨F,stage,made,_,inv,_⟩ := (catch_up_actions sane (fun off : False => off.elim) (fun off => off.elim)
    (fun off : False => off.elim) sweep quiet).ok rfl acts
  have in_time : time ≤ F.now := by rw [stage.now]
  refine Behaviour.Seq.run (cross_boundaries_ends time made.opened in_time inv) fun u crosses => ?_
  obtain ⟨_,_,_,inv',_⟩ := (cross_boundaries_meets time _ F made.opened in_time).ok ⟨inv,le_refl _⟩ crosses
  exact expire_due_ends inv' time

end Loops

/-- After a tick nothing of the run is due at its time, whatever steps follow it: the next tick at the time at which
    something falls due comes later. And catching up with any time ends, with the outcome that the bounded loops compute. -/
theorem ticks_make_progress {scenario : ScenarioDefinition} {s : RunState} (reachable : Reachable scenario s) :
    (∀ (request : SimulationCommandRequest) (applied : Applied) (s' : RunState), request.payload = .ClockTick →
      (Input.Request request).step.run s = .ok applied s' → ∀ history later, Runs s' history later →
        ∀ due, later.next_due = some due → request.logical_time < due) ∧
    ∀ time sweep payloads, (∀ payload ∈ payloads, payload.Quiet) →
      CatchesUp time sweep { run := s, payloads } ((catch_up time sweep).run { run := s, payloads }) := by
  have sane := reachable.sane
  refine ⟨fun request applied s' tick ran history later runs due next => ?_,
    fun time sweep payloads quiet => catch_up_ends sane time sweep quiet⟩
  obtain ⟨ahead,in_time⟩ := tick_ahead sane tick ran
  obtain ⟨_,stepped⟩ := Input.stepped sane ran
  exact (ahead.runs stepped.sane in_time runs).1.lt_next_due next

/-- Two cashflows; the tick for the first leaves the second. -/
theorem ticks_make_progress_of_cashflows : ∃ s applied s', Reachable sample s ∧ s.next_due = some 50 ∧
    (ask 2 50 0 .ClockTick).step.run s = .ok applied s' ∧ s'.next_due = some 70 ∧
    ∀ history later, Runs s' history later → ∀ due, later.next_due = some due → 50 < due := by
  obtain ⟨s,applied,s',reachable,ran,first,second⟩ := @play_steps sample sample_codec
    [ask 0 0 1 (.ScheduleCashflow 1 1 5 50 "coupon"),ask 1 0 1 (.ScheduleCashflow 1 1 5 70 "coupon")] (ask 2 50 0 .ClockTick)
    (fun s _ s' => s.next_due = some 50 ∧ s'.next_due = some 70) (by decide +kernel)
  exact ⟨s,applied,s',reachable,first,ran,second,(ticks_make_progress reachable).1 _ _ _ rfl ran⟩

/-- Each trading day, in order and without the holidays, gives a venue its four boundaries, none out of range. Catching up
    crosses, of the boundaries that the venues have not passed, exactly those due, once each and in the order of time; and its
    loop ends. -/
theorem boundaries_are_crossed_in_order {calendar : Calendar} {venues : OrdSet VenueId}
    (valid : calendar.is_valid venues = true) :
    (∀ venue session, calendar.session venue = some session →
      (∀ step, calendar.boundary venue step = (calendar.trading_day (step / BOUNDARIES_PER_DAY)).map fun day =>
        ⟨calendar.day_ns * day + Calendar.offset session (step % BOUNDARIES_PER_DAY),Calendar.phase_after (step + 1),day⟩) ∧
      ∀ step b b', calendar.boundary venue step = some b → calendar.boundary venue (step + 1) = some b' →
        b.at_ns ≤ b'.at_ns) ∧
    (∀ day, (∃ index, calendar.trading_day index = some day) ↔
      day < calendar.days ∧ calendar.holidays.contains day = false) ∧
    (∀ i j day day', i < j → calendar.trading_day i = some day → calendar.trading_day j = some day' → day < day') ∧
    ∀ scenario s time sweep payloads t, Reachable scenario s → s.calendar = some calendar →
      (∀ payload ∈ payloads, EventPayload.Quiet payload) →
      (do
        let events ← on_simulation (SimulationState.catch_up time sweep)
        emit (events.map EventPayload.Simulation) : Engine Unit).run { run := s, payloads } = .ok () t →
      Behaviour.While (boundary_round time) t ((cross_boundaries time t.run.boundaries_left).run t) ∧
      (crossings time t.run.boundaries_left t).Pairwise (fun a b => a.boundary.at_ns ≤ b.boundary.at_ns ∧
        (a.venue = b.venue → a.step < b.step)) ∧
      ∀ u, (cross_boundaries time t.run.boundaries_left).run t = .ok () u → u.run.due_boundary time = none ∧
        ∀ venue step boundary, (∃ crossing ∈ crossings time t.run.boundaries_left t,
            crossing.venue = venue ∧ crossing.step = step ∧ crossing.boundary = boundary) ↔
          calendar.boundary venue step = some boundary ∧ boundary.at_ns ≤ time ∧
            ∃ passed, s.session_steps.get? venue = some passed ∧ passed ≤ step := by
  refine ⟨fun venue session holds => ⟨Calendar.boundary_eq valid holds,
      fun step b b' found later => Calendar.boundary_le valid (Nat.le_succ step) found later⟩,
    fun day => Calendar.mem_trading_days,fun i j day day' lt first second => Calendar.trading_day_lt lt first second,?_⟩
  intro scenario s time sweep payloads t reachable has quiet acts
  obtain ⟨F,stage,made,⟨_,steps⟩,inv,_⟩ := (catch_up_actions reachable.sane (fun off : False => off.elim) (fun off => off.elim)
    (fun off : False => off.elim) sweep quiet).ok rfl acts
  have in_time : time ≤ F.now := stage.now.ge
  have has : F.setup.calendar = some calendar := by rw [stage.setup]; exact has
  refine ⟨cross_boundaries_ends time made.opened in_time inv,crossings_ordered made.opened in_time inv has valid,
    fun u crosses => ?_⟩
  obtain ⟨_,_,_,_,none⟩ := (cross_boundaries_meets time _ F made.opened in_time).ok ⟨inv,le_refl _⟩ crosses
  refine ⟨none,fun venue step boundary => ⟨?_,?_⟩⟩
  · rintro ⟨crossing,member,rfl,rfl,rfl⟩
    obtain ⟨G,framed,setup,now,passed,at_step,le⟩ := crossings_framed made.opened in_time inv member
    obtain ⟨c,has',found⟩ := framed.due.passes
    rw [setup] at has'
    cases has.symm.trans has'
    exact ⟨found,framed.due.in_time.trans_eq (now.trans stage.now),passed,by rw [← steps]; exact at_step,le⟩
  · rintro ⟨found,due,passed,at_step,le⟩
    exact crossings_all made.opened in_time inv has valid le_rfl crosses (by rw [steps]; exact at_step) le found due

/-- A tick at time 45 crosses all four boundaries of the first day, each when it is due. -/
theorem boundaries_are_crossed_in_order_on_a_day : ∃ calendar s t u, sample_days.calendar = some calendar ∧
    Reachable sample_days s ∧ s.calendar = some calendar ∧
    (cross_boundaries 45 t.run.boundaries_left).run t = .ok () u ∧
    (crossings 45 t.run.boundaries_left t).map (fun crossing => crossing.boundary.at_ns) = [10,20,30,40] ∧
    (crossings 45 t.run.boundaries_left t).Pairwise (fun a b => a.boundary.at_ns ≤ b.boundary.at_ns ∧
      (a.venue = b.venue → a.step < b.step)) ∧ u.run.due_boundary 45 = none := by
  obtain ⟨start,history,s,starts,runs,has,_,t,acts,_,u,crosses,times⟩ := @play_reaches sample_days sample_codec []
    (fun _ s => s.calendar = sample_days.calendar ∧ ∃ _x t, (do
        let events ← on_simulation (SimulationState.catch_up 45 true)
        emit (events.map EventPayload.Simulation) : Engine Unit).run { run := s } = .ok _x t ∧
      ∃ _x u, (cross_boundaries 45 t.run.boundaries_left).run t = .ok _x u ∧
        (crossings 45 t.run.boundaries_left t).map (fun crossing => crossing.boundary.at_ns) = [10,20,30,40])
    (by decide +kernel)
  have reachable : Reachable sample_days s := ⟨start,history,starts,runs⟩
  obtain ⟨_,_,_,loops⟩ := @boundaries_are_crossed_in_order ⟨100,2,∅,[⟨1,10,20,30,40⟩]⟩ _
    (by decide : Calendar.is_valid _ sample_days.venues = true)
  obtain ⟨_,ordered,ends⟩ := loops _ _ 45 true [] t reachable has (by simp) acts
  exact ⟨_,s,t,u,rfl,reachable,has,crosses,times,ordered,(ends u crosses).1⟩

end Bunting
