import Bunting.Sweeps
import Bunting.Valuation

/-!
Session boundaries. A boundary moves a venue to its next phase, holds the
auctions of its listings, expires its day orders and records its closes; the
last close of a day settles the day. Every boundary due is crossed: each
crossing leaves one fewer.
-/

namespace Bunting
open Stateful

variable {F : Frame} {step : Nat}

variable {t : Transition} {boundary : Boundary} {venue : VenueId}

theorem overflows_allowed {fault : Fault} (large : Overflows fault t) : F.Allows fault t :=
  F.allows_overflow large

/-! ### Auctions and day orders of a venue -/

theorem uncross_venue_meets (opened : F.mode = .Open) (venue : VenueId) (phase : SessionPhase) :
    Meets (Inv F) (uncross_venue venue phase) (fun _ => Inv F) F.Allows := by
  intro t inv
  unfold uncross_venue
  split_ifs
  · rw [EStateM.run_bind]
    simp only [EStateM.run_get]
    have listed : ∀ key ∈ t.run.venue_listings venue, F.setup.definitions.contains key = true := by
      intro key member
      obtain ⟨listing,known⟩ := OrdMap.mem_keys.mp (List.mem_filter.mp member).1
      rw [← inv.setup]
      exact OrdMap.contains_iff.mpr ⟨_,RunState.definition_of_listing known⟩
    refine (forM_meets (fun rest t => Inv F t ∧ ∀ key ∈ rest, F.setup.definitions.contains key = true)
      (fun key rest => ?_) (t.run.venue_listings venue)).post (fun _ _ holds => holds.1) t ⟨inv,listed⟩
    rintro u ⟨inv,listed⟩
    have held : Meets (Inv F) (auction key) (fun _ => Inv F) F.Allows := fun v inv =>
      (auction_meets opened inv (listed key List.mem_cons_self)).post (fun _ _ holds => holds.1) v rfl
    have touched : Meets (Inv F) (touch key) (fun _ => Inv F) F.Allows := fun _ inv => inv.touch _
    have both := touched.bind fun _ => held
    exact both.post (fun _ _ inv => ⟨inv,fun j member => listed j (List.mem_cons_of_mem _ member)⟩) u inv
  · exact inv

theorem Inv.day_orders (inv : Inv F t) (venue : VenueId) : AllLive (t.run.day_orders venue) t := by
  have entries : t.run.day_orders venue = (t.run.ownership.entries.filter (fun entry =>
      entry.2.day ∧ entry.2.state = .Active ∧ entry.2.listing_key.venue_id = venue)).map Prod.fst := by
    unfold RunState.day_orders OrdMap.values
    rw [List.filter_map,List.map_map]
    refine List.map_congr_left fun entry member => ?_
    exact inv.records.orders.keyed (OrdMap.get?_eq_some_iff.mpr (List.mem_filter.mp member).1)
  rw [entries]
  refine ⟨t.run.ownership.keys_nodup.sublist (List.filter_sublist.map Prod.fst),fun id member => ?_⟩
  obtain ⟨entry,picked,rfl⟩ := List.mem_map.mp member
  obtain ⟨there,holds⟩ := List.mem_filter.mp picked
  simp only [decide_eq_true_eq] at holds
  exact ⟨entry.2,OrdMap.get?_eq_some_iff.mpr there,holds.2.1⟩

theorem expire_day_orders_meets (venue : VenueId) (phase : SessionPhase) :
    Meets (Inv F) (expire_day_orders venue phase) (fun _ => Inv F) Overflows := by
  intro t inv
  unfold expire_day_orders
  split_ifs
  · exact (forM_meets (fun rest t => Inv F t ∧ AllLive rest t)
      (fun id rest => cancel_meets id rest .Expired) (t.run.day_orders venue)).post
      (fun _ _ holds => holds.1) t ⟨inv,inv.day_orders venue⟩
  · exact inv

/-! ### Closes and the end of a day -/

theorem Inv.close_listing {state : RunState × List ClosingPrice} (inv : Inv F { t with run := state.1 })
    (key : ListingKey) : Inv F { t with run := (RunState.close_listing state key).1 } := by
  have price_positive : ∀ price, (state.1.day_trades.get? key).or ((state.1.closes.get? key).or
      (state.1.ledger.mark key.instrument_id)) = some price → 0 < price := by
    intro price found
    rcases Option.or_eq_some_iff.mp found with traded | ⟨_,found⟩
    · exact inv.trades traded
    · rcases Option.or_eq_some_iff.mp found with closed | ⟨_,marked⟩
      · exact inv.closes closed
      · exact inv.balanced.marks marked
  have trades : ∀ {j price}, (state.1.day_trades.erase key).get? j = some price → 0 < price :=
    fun found => inv.trades (OrdMap.of_erase found)
  simp only [RunState.close_listing]
  split
  · exact { inv with trades, moves := inv.moves.tail (.closed _ _) }
  · next price priced =>
    refine { inv with trades, closes := fun found => ?_, moves := inv.moves.tail (.closed _ _) }
    exact OrdMap.of_insert found (price_positive price priced) fun _ _ => inv.closes

theorem Inv.close_day (inv : Inv F t) (venue : VenueId) :
    Inv F { t with run := (t.run.close_day venue).1 } := by
  have fold (keys : List ListingKey) (state : RunState × List ClosingPrice) (inv : Inv F { t with run := state.1 }) :
      Inv F { t with run := (keys.foldl RunState.close_listing state).1 } := by
    induction keys generalizing state with
    | nil => exact inv
    | cons key rest ih => exact ih _ (inv.close_listing key)
  exact fold _ (t.run,[]) inv

/-- A mark of an instrument of the run. -/
def Markable (setup : Setup) (mark : InstrumentMark) : Prop :=
  0 < mark.price ∧ ∃ T, setup.terms.get? mark.instrument_id = some T

theorem Inv.day_marks (inv : Inv F t) : ∀ mark ∈ t.run.day_marks, Markable F.setup mark := by
  intro mark member
  obtain ⟨instrument,there,made⟩ := List.mem_filterMap.mp member
  obtain ⟨price,closed,rfl⟩ := Option.map_eq_some_iff.mp made
  obtain ⟨key,_,closed⟩ := Option.bind_eq_some_iff.mp closed
  obtain ⟨definition,defined⟩ := OrdMap.mem_keys.mp there
  refine ⟨inv.closes closed,definition.terms,?_⟩
  have same : t.run.instruments = F.setup.instruments := by rw [← inv.setup]; rfl
  rw [F.valid.terms,OrdMap.get?_mapValues,← same,defined]
  rfl

theorem set_mark_meets (mark : InstrumentMark) (rest : List InstrumentMark) :
    Meets (fun t => Inv F t ∧ ∀ m ∈ mark :: rest, Markable F.setup m)
      (posting Fault.accounting (Ledger.set_mark mark.instrument_id mark.price))
      (fun _ t => Inv F t ∧ ∀ m ∈ rest, Markable F.setup m) F.Allows := by
  rintro t ⟨inv,markable⟩
  obtain ⟨positive,T,known⟩ := markable mark List.mem_cons_self
  have terms : t.run.ledger.terms.get? mark.instrument_id = some T := by rw [inv.balanced.accounts.terms]; exact known
  have marked : (Ledger.set_mark mark.instrument_id mark.price).run t.run.ledger =
      .ok () { t.run.ledger with marks := t.run.ledger.marks.insert mark.instrument_id mark.price } := by
    simp [Ledger.set_mark,Ledger.terms_of_known terms,run_refuse,not_le.mpr positive]
  have balanced := inv.balanced.mark mark.instrument_id positive
  unfold posting
  rw [run_zoom,marked]
  refine ⟨?_,fun m member => markable m (List.mem_cons_of_mem _ member)⟩
  exact { inv with setup := RunState.setup_of inv.setup rfl balanced rfl, balanced, moves := inv.moves.tail (.marked _) }

/-- A valuation fails by overflow, or where the rates of the held currencies are not vouched for. -/
theorem score_meets {α : Type} {scored : Except LedgerError α} (inv : Inv F t) (only : F.valued → OnlyOverflow scored) :
    Meets (fun u => t = u) (posting Fault.accounting (liftM scored)) (fun _ => Inv F) F.Allows := by
  rintro _ rfl
  simp only [posting,run_zoom]
  cases made : scored with
  | ok scores => exact inv
  | error e =>
    simp only [run_lift_error]
    by_cases vouched : F.valued
    · refine F.allows_overflow ?_
      rw [Fault.accounting,if_pos (only vouched e made)]
    · refine ⟨?_,fun _ => vouched,fun d settling => ?_⟩
      · unfold Fault.accounting; split_ifs <;> simp
      · unfold Fault.accounting at settling; simp only at settling; split_ifs at settling

theorem settle_day_meets (day : Nat) :
    Meets (Inv F) (settle_day day) (fun settled t => settled.session_event = some (.Settled day) ∧ Inv F t) F.Allows := by
  refine get_meets fun t inv => ?_
  have marks := forM_meets (fun rest t => Inv F t ∧ ∀ mark ∈ rest, Markable F.setup mark) set_mark_meets
    t.run.day_marks
  refine (marks.at_state ⟨inv,inv.day_marks⟩).bind fun _ => (get_meets fun u ⟨inv,_⟩ => ?_)
  refine (score_meets inv fun vouched => ?_).bind fun scores => (orElse_meets (fun _ _ _ inv => inv)
    fun _ _ => F.allows_overflow rfl).bind fun _ => pure_meets fun _ inv => ⟨rfl,inv⟩
  have enrolled : u.run.participants = F.setup.participants := by rw [← inv.setup]; rfl
  have currency : u.run.reporting_currency = F.setup.reporting_currency := by rw [← inv.setup]; rfl
  have rates : u.run.fx_rates = F.setup.fx_rates := by rw [← inv.setup]; rfl
  refine .mapM fun participant member => .map _ ?_
  rw [RunState.net_liquidation_value,currency,rates]
  rw [enrolled] at member
  exact reporting_value_failsOnly F.valid inv.balanced.accounts.terms inv.balanced.accounts.known
    (inv.balanced.valued vouched) (OrdMap.contains_iff.mpr (OrdMap.mem_keys.mp member))

/-! ### Session events -/

/-- The frame with session events reported. -/
def Frame.report (F : Frame) (labels : List SessionEvent) : Frame := { F with sessions := F.sessions ++ labels }

theorem Inv.report {event : SimulationEvent} {label : SessionEvent} (inv : Inv F t)
    (tells : event.session_event = some label) :
    Inv (F.report [label]) { t with payloads := t.payloads ++ [.Simulation event] } :=
  { inv with
    records := by
      rw [terminal_append fun payload last => by rw [List.mem_singleton.mp last]; rfl]
      exact inv.records
    balanced := { inv.balanced with }
    emitted := inv.emitted.session tells
    moves := inv.moves.tail (.announced tells) }

/-- Every venue is between its sessions. -/
def all_closed (steps : OrdMap VenueId Nat) : Bool :=
  steps.keys.all (fun venue => Calendar.phase_after ((steps.get? venue).getD 0) = .Closed)

/-- What a venue reports at its close, once its boundary is passed. -/
def closing_events (steps : OrdMap VenueId Nat) (venue : VenueId) (boundary : Boundary) : List SessionEvent :=
  if boundary.phase = .Closed then
    .Closed venue boundary.day :: if all_closed steps then [.Settled boundary.day] else []
  else []

/-- What a venue reports of a boundary, once it is passed. -/
def crossing_events (steps : OrdMap VenueId Nat) (venue : VenueId) (boundary : Boundary) : List SessionEvent :=
  .Phase venue boundary.day boundary.phase :: closing_events steps venue boundary

theorem Inv.all_closed {calendar : Calendar} (inv : Inv F t) (has : F.setup.calendar = some calendar) :
    t.run.session_steps.keys.all (fun venue => t.run.session_phase venue = .Closed) = Bunting.all_closed F.steps := by
  have same : t.run.calendar = some calendar := by rw [← has,← inv.setup]; rfl
  unfold Bunting.all_closed RunState.session_phase
  rw [same,inv.steps]
  rfl

theorem record_close_meets {calendar : Calendar} (has : F.setup.calendar = some calendar) (venue : VenueId)
    (boundary : Boundary) :
    Meets (Inv F) (record_close venue boundary) (fun _ => Inv (F.report (closing_events F.steps venue boundary)))
      F.Allows := by
  unfold record_close closing_events
  refine ite_meets (fun closed => get_meets fun t inv => ?_) fun other => pure_meets fun _ inv => ?_
  swap
  · rw [if_neg other]
    unfold Frame.report
    rw [List.append_nil]
    exact inv
  rw [if_pos closed]
  have reports : Meets (fun u => t = u) (do
      modify_run (fun _ => (t.run.close_day venue).1)
      emit [.Simulation (.DayClosed venue boundary.day (t.run.close_day venue).2)])
      (fun _ => Inv (F.report [.Closed venue boundary.day])) F.Allows := by
    rintro _ rfl
    exact (inv.close_day venue).report rfl
  have settles : Meets (Inv (F.report [.Closed venue boundary.day])) (do
      let t ← get
      if t.run.session_steps.keys.all (fun venue => t.run.session_phase venue = .Closed) then do
        let settled ← settle_day boundary.day
        emit [.Simulation settled]
      else pure ())
      (fun _ => Inv (F.report (.Closed venue boundary.day ::
        if Bunting.all_closed F.steps then [.Settled boundary.day] else []))) F.Allows := by
    refine get_meets fun u inv => ?_
    rw [inv.all_closed has]
    refine ite_meets (fun all => ?_) fun some => pure_meets fun _ same => ?_
    · refine ((settle_day_meets boundary.day).at_state inv).bind fun settled => ?_
      rintro v ⟨tells,inv⟩
      have reported := inv.report tells
      have all : Bunting.all_closed F.steps = true := all
      rw [if_pos all]
      unfold Frame.report at reported ⊢
      rw [List.append_assoc] at reported
      exact reported
    · have some : ¬ Bunting.all_closed F.steps = true := some
      rw [if_neg some]
      exact same ▸ inv
  have both := reports.bind fun _ => settles
  rw [bind_assoc] at both
  exact both

/-! ### Crossing boundaries -/

/-- The frame once a venue has passed one boundary more and reported it. -/
def Frame.pass (F : Frame) (venue : VenueId) (step : Nat) (boundary : Boundary) : Frame :=
  { F with
    steps := F.steps.insert venue (step + 1)
    sessions := F.sessions ++ crossing_events (F.steps.insert venue (step + 1)) venue boundary }

/-- A boundary that a venue is to pass next, and that is due. -/
structure Frame.Due (F : Frame) (venue : VenueId) (step : Nat) (boundary : Boundary) : Prop where
  passes : ∃ calendar, F.setup.calendar = some calendar ∧ calendar.boundary venue step = some boundary
  at_step : F.steps.get? venue = some step
  in_time : boundary.at_ns ≤ F.now

theorem Inv.pass (inv : Inv F t) (due : F.Due venue step boundary) :
    Inv { F with steps := F.steps.insert venue (step + 1) }
      { t with run := { t.run with session_steps := t.run.session_steps.insert venue (step + 1) } } := by
  obtain ⟨⟨calendar,has,crosses⟩,at_step,in_time⟩ := due
  rw [← inv.steps] at at_step
  exact { inv with
    steps := by simp only [inv.steps]
    balanced := { inv.balanced with }
    moves := inv.moves.tail (.passed has at_step crosses in_time) }

theorem cross_boundary_meets (opened : F.mode = .Open) (due : F.Due venue step boundary) :
    Meets (Inv F) (cross_boundary venue step boundary) (fun _ => Inv (F.pass venue step boundary)) F.Allows := by
  obtain ⟨calendar,has,_⟩ := due.passes
  have passes : Meets (Inv F) (do
      let next ← orElse (to_u64 (step + 1)) (Fault.overflow .SequenceOverflow)
      modify_run (fun run => { run with session_steps := run.session_steps.insert venue next }))
      (fun _ => Inv { F with steps := F.steps.insert venue (step + 1) }) F.Allows := by
    refine (orElse_meets (fun next _ fits inv => (⟨to_u64_some fits,inv⟩ : next = step + 1 ∧ Inv F _))
      fun _ _ => F.allows_overflow rfl).bind fun next => ?_
    rintro t ⟨rfl,inv⟩
    exact inv.pass due
  have trades : Meets (Inv { F with steps := F.steps.insert venue (step + 1) }) (do
      uncross_venue venue boundary.phase
      expire_day_orders venue boundary.phase) (fun _ => Inv { F with steps := F.steps.insert venue (step + 1) }) F.Allows :=
    (uncross_venue_meets (F := { F with steps := F.steps.insert venue (step + 1) }) opened venue boundary.phase).bind fun _ =>
      (expire_day_orders_meets venue boundary.phase).fault fun _ _ large => overflows_allowed large
  have reports : Meets (Inv { F with steps := F.steps.insert venue (step + 1) }) (do
      emit [.Simulation (.SessionPhaseChanged venue boundary.day boundary.phase)]
      record_close venue boundary) (fun _ => Inv (F.pass venue step boundary)) F.Allows := by
    intro t inv
    have tells : (SimulationEvent.SessionPhaseChanged venue boundary.day boundary.phase).session_event =
      some (.Phase venue boundary.day boundary.phase) := rfl
    have closes := record_close_meets (F := Frame.report { F with steps := F.steps.insert venue (step + 1) }
      [.Phase venue boundary.day boundary.phase]) has venue boundary _ (inv.report tells)
    unfold Frame.report at closes
    simp only [List.append_assoc] at closes
    exact closes
  have both := passes.bind fun _ => trades.bind fun _ => reports
  simp only [bind_assoc] at both
  exact both

def next_crossing (calendar : Option Calendar) (steps : OrdMap VenueId Nat) : Option (VenueId × Nat × Boundary) := do
  let calendar ← calendar
  (steps.entries.filterMap (fun entry =>
    (calendar.boundary entry.1 entry.2).map (fun boundary => (entry.1,entry.2,boundary)))).foldl RunState.earlier none

namespace RunState
variable {run : RunState} {all : List (VenueId × Nat × Boundary)} {best : Option (VenueId × Nat × Boundary)}
  {calendar : Calendar} {steps : OrdMap VenueId Nat} {next : VenueId × Nat × Boundary}

/-- The place of a boundary in the order of crossing: by time, the lower venue first. -/
def turn (next : VenueId × Nat × Boundary) : Lex (Nat × VenueId) := toLex (next.2.2.at_ns,next.1)

theorem earlier_eq (best next : VenueId × Nat × Boundary) :
    earlier (some best) next = if turn next < turn best then some next else some best := by
  simp only [earlier,turn,Prod.Lex.lt_iff,ofLex_toLex]

theorem foldl_earlier {found : VenueId × Nat × Boundary} (chosen : all.foldl earlier best = some found) :
    (found ∈ all ∨ best = some found) ∧ ∀ other, other ∈ all ∨ best = some other → turn found ≤ turn other := by
  induction all generalizing best with
  | nil =>
    refine ⟨.inr chosen,fun other there => ?_⟩
    rcases there with inside | same
    · cases inside
    · cases chosen.symm.trans same
      exact le_rfl
  | cons next rest ih =>
    obtain ⟨origin,least⟩ := ih chosen
    cases best with
    | none =>
      have here : turn found ≤ turn next := least next (.inr rfl)
      refine ⟨?_,fun other there => ?_⟩
      · rcases origin with later | same
        · exact .inl (List.mem_cons_of_mem _ later)
        · cases same
          exact .inl List.mem_cons_self
      · rcases there with inside | impossible
        · rcases List.mem_cons.mp inside with rfl | later
          · exact here
          · exact least other (.inl later)
        · cases impossible
    | some best =>
      rw [earlier_eq] at origin least
      have both : turn found ≤ turn next ∧ turn found ≤ turn best := by
        split_ifs at least with sooner
        · have here := least next (.inr rfl)
          exact ⟨here,here.trans sooner.le⟩
        · have here := least best (.inr rfl)
          exact ⟨here.trans (not_lt.mp sooner),here⟩
      refine ⟨?_,fun other there => ?_⟩
      · rcases origin with later | same
        · exact .inl (List.mem_cons_of_mem _ later)
        · split_ifs at same <;> cases same
          · exact .inl List.mem_cons_self
          · exact .inr rfl
      · rcases there with inside | same
        · rcases List.mem_cons.mp inside with rfl | later
          · exact both.1
          · exact least other (.inl later)
        · cases same
          exact both.2

theorem foldl_earlier_none (chosen : all.foldl earlier best = none) : best = none ∧ all = [] := by
  induction all generalizing best with
  | nil => exact ⟨chosen,rfl⟩
  | cons next rest ih =>
    obtain ⟨impossible,_⟩ := ih chosen
    cases best with
    | none => cases impossible
    | some best =>
      rw [earlier_eq] at impossible
      split_ifs at impossible

/-- A boundary that a venue has yet to pass, at its own step. -/
theorem mem_boundaries :
    next ∈ steps.entries.filterMap (fun entry =>
      (calendar.boundary entry.1 entry.2).map (fun boundary => (entry.1,entry.2,boundary))) ↔
    steps.get? next.1 = some next.2.1 ∧ calendar.boundary next.1 next.2.1 = some next.2.2 := by
  simp only [List.mem_filterMap,Option.map_eq_some_iff]
  constructor
  · rintro ⟨entry,there,boundary,crosses,rfl⟩
    exact ⟨OrdMap.get?_eq_some_iff.mpr there,crosses⟩
  · rintro ⟨at_step,crosses⟩
    exact ⟨(next.1,next.2.1),OrdMap.get?_eq_some_iff.mp at_step,next.2.2,crosses,rfl⟩

/-- The next boundary is that of a venue at its own step, and none comes before it. -/
theorem next_crossing_some {calendar : Option Calendar} (found : next_crossing calendar steps = some next) :
    ∃ c, calendar = some c ∧ steps.get? next.1 = some next.2.1 ∧ c.boundary next.1 next.2.1 = some next.2.2 ∧
      ∀ venue step boundary, steps.get? venue = some step → c.boundary venue step = some boundary →
        turn next ≤ turn (venue,step,boundary) := by
  obtain ⟨c,has,chosen⟩ := Option.bind_eq_some_iff.mp found
  obtain ⟨origin,least⟩ := foldl_earlier chosen
  obtain ⟨at_step,crosses⟩ := mem_boundaries.mp (origin.resolve_right (by simp))
  exact ⟨c,has,at_step,crosses,fun venue step boundary here later =>
    least (venue,step,boundary) (.inl (mem_boundaries.mpr ⟨here,later⟩))⟩

theorem next_boundary_some {step : Nat} (next : run.next_boundary = some (venue,step,boundary)) :
    ∃ calendar, run.calendar = some calendar ∧ run.session_steps.get? venue = some step ∧
      calendar.boundary venue step = some boundary := by
  obtain ⟨calendar,has,at_step,crosses,_⟩ := next_crossing_some next
  exact ⟨calendar,has,at_step,crosses⟩

/-- Nothing is due once the boundary that each venue passes next is later. -/
theorem due_boundary_eq_none_iff {time : Nat} : run.due_boundary time = none ↔
    ∀ calendar venue step boundary, run.calendar = some calendar → run.session_steps.get? venue = some step →
      calendar.boundary venue step = some boundary → time < boundary.at_ns := by
  simp only [due_boundary,Option.filter_eq_none_iff,decide_eq_true_eq,not_le]
  constructor
  · intro none calendar venue step boundary has at_step crosses
    cases next : run.next_boundary with
    | none =>
      rw [next_boundary,has] at next
      have member := (@mem_boundaries calendar run.session_steps (venue,step,boundary)).mpr ⟨at_step,crosses⟩
      rw [(foldl_earlier_none next).2] at member
      cases member
    | some found =>
      have late := none found next
      obtain ⟨c,has',_,_,least⟩ := next_crossing_some next
      cases has.symm.trans has'
      rcases Prod.Lex.le_iff.mp (least venue step boundary at_step crosses) with earlier | ⟨same,_⟩
      · exact late.trans earlier
      · exact late.trans_eq same
  · intro later found next
    obtain ⟨calendar,has,at_step,crosses⟩ := next_boundary_some next
    exact later calendar _ _ _ has at_step crosses

/-- A venue that passes a boundary has one fewer left. -/
theorem boundaries_left_pass {step : Nat}
    (run' : RunState) (has : run.calendar = some calendar) (at_step : run.session_steps.get? venue = some step)
    (found : calendar.boundary venue step = some boundary) (same : run'.calendar = run.calendar)
    (passed : run'.session_steps = run.session_steps.insert venue (step + 1)) :
    run'.boundaries_left + 1 = run.boundaries_left := by
  have short := Calendar.step_lt_of_boundary found
  have total := run.session_steps.sum_insert (fun _ step => BOUNDARIES_PER_DAY * calendar.days - step) venue (step + 1)
  rw [at_step] at total
  have values (steps : OrdMap VenueId Nat) :
      (steps.values.map (fun step => BOUNDARIES_PER_DAY * calendar.days - step)).sum =
        steps.sum (fun _ step => BOUNDARIES_PER_DAY * calendar.days - step) := by
    rw [OrdMap.values,List.map_map]
    rfl
  unfold boundaries_left
  rw [same,has,passed]
  simp only [Option.elim,values] at total ⊢
  omega

end RunState

theorem Inv.calendar (inv : Inv F t) : t.run.calendar = F.setup.calendar := by
  rw [← inv.setup]; rfl

/-- The sessions as a machine of their own: boundaries are crossed in time
    order as long as they are due, and each is reported. -/
inductive Crosses (calendar : Option Calendar) (time : Nat) :
    OrdMap VenueId Nat → List SessionEvent → OrdMap VenueId Nat → Prop
  | done {steps} : Crosses calendar time steps [] steps
  | cross {steps venue step boundary events steps'} (next : next_crossing calendar steps = some (venue,step,boundary))
      (due : boundary.at_ns ≤ time) (rest : Crosses calendar time (steps.insert venue (step + 1)) events steps') :
      Crosses calendar time steps (crossing_events (steps.insert venue (step + 1)) venue boundary ++ events) steps'

theorem Inv.due {time : Nat} (inv : Inv F t) (in_time : time ≤ F.now)
    (due : t.run.due_boundary time = some (venue,step,boundary)) : F.Due venue step boundary := by
  obtain ⟨next,early⟩ := Option.filter_eq_some_iff.mp due
  have early : boundary.at_ns ≤ time := of_decide_eq_true early
  obtain ⟨calendar,has,at_step,found⟩ := RunState.next_boundary_some next
  exact ⟨⟨calendar,by rw [← inv.calendar]; exact has,found⟩,by rw [← inv.steps]; exact at_step,early.trans in_time⟩

/-- A round of the loop over the boundaries due crosses one of those left. -/
theorem boundary_meets {time : Nat} (opened : F.mode = .Open)
    (in_time : time ≤ F.now) (inv : Inv F t) (due : t.run.due_boundary time = some (venue,step,boundary)) :
    Meets (fun u => t = u) (do
        expire_due boundary.at_ns
        cross_boundary venue step boundary)
      (fun _ u => Inv (F.pass venue step boundary) u ∧ u.run.boundaries_left + 1 = t.run.boundaries_left) F.Allows := by
  have passes := inv.due in_time due
  obtain ⟨calendar,has,at_step,crosses⟩ := RunState.next_boundary_some (Option.filter_eq_some_iff.mp due).1
  have expires : Meets (Inv F) (expire_due boundary.at_ns) (fun _ => Inv F) F.Allows :=
    (expire_due_meets boundary.at_ns).imp (fun _ inv => inv) (fun _ _ holds => holds.1)
      fun _ _ large => overflows_allowed large
  refine ((expires.at_state inv).bind fun _ => cross_boundary_meets opened passes).post fun _ u passed => ⟨passed,?_⟩
  exact RunState.boundaries_left_pass u.run has at_step crosses (by rw [passed.calendar,inv.calendar]; rfl)
    (by rw [passed.steps,inv.steps]; rfl)

theorem cross_boundaries_meets (time fuel : Nat) (F : Frame) (opened : F.mode = .Open) (in_time : time ≤ F.now) :
    Meets (fun t => Inv F t ∧ t.run.boundaries_left ≤ fuel) (cross_boundaries time fuel)
      (fun _ t => ∃ steps events, Crosses F.setup.calendar time F.steps events steps ∧
        Inv { F with steps, sessions := F.sessions ++ events } t ∧ t.run.due_boundary time = none) F.Allows := by
  induction fuel generalizing F with
  | zero =>
    rintro t ⟨inv,none_left⟩
    refine ⟨F.steps,[],.done,by rw [List.append_nil]; exact inv,?_⟩
    cases due : t.run.due_boundary time with
    | none => rfl
    | some found =>
      -- A boundary still to pass would be one of those left.
      obtain ⟨calendar,has,at_step,crosses⟩ := RunState.next_boundary_some (Option.filter_eq_some_iff.mp due).1
      have := RunState.boundaries_left_pass { t.run with
        session_steps := t.run.session_steps.insert found.1 (found.2.1 + 1) } has at_step crosses rfl rfl
      omega
  | succ fuel ih =>
    refine get_meets fun t ⟨inv,left⟩ => ?_
    cases due : t.run.due_boundary time with
    | none => exact pure_meets fun _ same => same ▸ ⟨F.steps,[],.done,by rw [List.append_nil]; exact inv,due⟩
    | some found =>
      obtain ⟨venue,step,boundary⟩ := found
      obtain ⟨next,early⟩ := Option.filter_eq_some_iff.mp due
      have rest : Meets (fun u => Inv (F.pass venue step boundary) u ∧ u.run.boundaries_left ≤ fuel)
          (cross_boundaries time fuel) (fun _ t => ∃ steps events, Crosses F.setup.calendar time F.steps events steps ∧
            Inv { F with steps, sessions := F.sessions ++ events } t ∧ t.run.due_boundary time = none) F.Allows := by
        refine (ih (F.pass venue step boundary) opened in_time).post fun _ u holds => ?_
        obtain ⟨steps,events,more,inv',none⟩ := holds
        rw [RunState.next_boundary,inv.calendar,inv.steps] at next
        refine ⟨steps,_,.cross next (of_decide_eq_true early) more,?_,none⟩
        simp only [Frame.pass,List.append_assoc] at inv' ⊢
        exact inv'
      have whole := (boundary_meets opened in_time inv due).bind fun _ =>
        rest.pre fun u ⟨passed,fewer⟩ => ⟨passed,by omega⟩
      rw [bind_assoc] at whole
      exact whole

end Bunting
