import Bunting.Runs

/-!
The accounts over whole runs. The cash and the lots of all participants
together change by what the events of a step say was posted from outside, and
by nothing else; what the accounts hold reserved or open is what the live
orders hold.
-/

namespace Bunting
open Stateful

/-! ### What events bring in -/

/-- The cash that a scheduled action of the run brings in. -/
def ScheduledAction.cash_in (c : CurrencyId) (action : ScheduledAction) : Int :=
  match action.kind with
  | .Cashflow _ currency amount => if currency = c then amount else 0
  | _ => 0

/-- The lots that a facility job puts out, less those it takes in. -/
def FacilityDefinition.lots_in (i : InstrumentId) (facility : FacilityDefinition) (job : FacilityJob) : Int :=
  (if facility.output_instrument = some i then job.output_quantity else 0) -
    (if facility.input_instrument = some i then job.input_quantity else 0)

/-- The lots that a scheduled action of the run brings in. -/
def ScheduledAction.lots_in (sim : SimulationState) (i : InstrumentId) (action : ScheduledAction) : Int :=
  match action.kind with
  | .CompleteFacilityJob job_id => (sim.facility_jobs.get? job_id).elim 0 (fun job =>
    (sim.facilities.get? job.facility_id).elim 0 (fun facility => facility.lots_in i job))
  | _ => 0

namespace EventPayload

/-- The cash that an event brings in from outside: scheduled cashflows, fines,
    and tenders settled against the house. -/
def cash_in (run : RunState) (c : CurrencyId) : EventPayload → Int
  | .Simulation (.ScheduledActionApplied action_id) =>
    (run.simulation.action action_id).elim 0 (ScheduledAction.cash_in c)
  | .Simulation (.FineApplied _ currency amount _) => if currency = c then -amount else 0
  | .Simulation (.TenderSettled _ _ instrument side quantity price) =>
    (run.ledger.terms.get? instrument).elim 0 (fun T =>
      if T.currency = c then -side.signed (price * quantity * T.multiplier) else 0)
  | _ => 0

/-- The lots that an event brings in from outside: tenders settled against the
    house, and facility outputs less inputs. -/
def lots_in (run : RunState) (i : InstrumentId) : EventPayload → Int
  | .Simulation (.ScheduledActionApplied action_id) =>
    (run.simulation.action action_id).elim 0 (ScheduledAction.lots_in run.simulation i)
  | .Simulation (.TenderSettled _ _ instrument side quantity _) =>
    (run.ledger.terms.get? instrument).elim 0 (fun _ => if instrument = i then side.signed quantity else 0)
  | _ => 0

end EventPayload

section Entries
variable (terms : OrdMap InstrumentId InstrumentTerms)

theorem converted_cash (participant : ParticipantId) (sign : Int) (part : Option (InstrumentId × Int)) (c : CurrencyId) :
    ((External.converted terms participant sign part).map (Entry.cash_in c)).sum = 0 := by
  cases part <;> simp [External.converted,Entry.cash_in]

theorem converted_lots (participant : ParticipantId) (sign quantity : Int) (part : Option InstrumentId) (i : InstrumentId) :
    ((External.converted terms participant sign (part.map (fun j => (j,quantity)))).map (Entry.lots_in i)).sum =
      if part = some i then sign * quantity else 0 := by
  cases part <;> simp [External.converted,Entry.lots_in]

theorem action_cash (sim : SimulationState) (action : ScheduledAction) (c : CurrencyId) :
    ((sim.entries terms action).map (Entry.cash_in c)).sum = action.cash_in c := by
  unfold SimulationState.entries ScheduledAction.cash_in
  cases action.kind with
  | Cashflow participant currency amount => simp [Entry.cash_in]
  | CompleteFacilityJob job_id =>
    simp only [SimulationState.job_entries]
    cases sim.facility_jobs.get? job_id with
    | none => rfl
    | some job =>
      simp only [Option.elim_some]
      cases sim.facilities.get? job.facility_id with
      | none => rfl
      | some facility => simp [FacilityJob.entries,converted_cash]
  | ExpireInstrument _ => rfl
  | ExerciseOption _ _ _ => rfl
  | Deliver _ _ _ => rfl

theorem action_lots (sim : SimulationState) (action : ScheduledAction) (i : InstrumentId) :
    ((sim.entries terms action).map (Entry.lots_in i)).sum = action.lots_in sim i := by
  unfold SimulationState.entries ScheduledAction.lots_in
  cases action.kind with
  | Cashflow participant currency amount => simp [Entry.lots_in]
  | CompleteFacilityJob job_id =>
    simp only [SimulationState.job_entries]
    cases sim.facility_jobs.get? job_id with
    | none => rfl
    | some job =>
      simp only [Option.elim_some]
      cases sim.facilities.get? job.facility_id with
      | none => rfl
      | some facility =>
        simp only [Option.elim_some,FacilityJob.entries,List.map_append,List.sum_append,converted_lots,FacilityDefinition.lots_in]
        split_ifs <;> omega
  | ExpireInstrument _ => rfl
  | ExerciseOption _ _ _ => rfl
  | Deliver _ _ _ => rfl

end Entries

section Conservation
variable {scenario : ScenarioDefinition} {s s' : RunState} {input : Input} {applied : Applied}

/-- The events that post bring in what their entries bring in. -/
theorem posted_totals (s : RunState) (payloads : List EventPayload) (c : CurrencyId) (i : InstrumentId) :
    ((((payloads.filterMap EventPayload.posting).flatMap (SimulationEvent.entries s.ledger.terms s.simulation)).map
      (Entry.cash_in c)).sum = (payloads.map (EventPayload.cash_in s c)).sum) ∧
    ((((payloads.filterMap EventPayload.posting).flatMap (SimulationEvent.entries s.ledger.terms s.simulation)).map
      (Entry.lots_in i)).sum = (payloads.map (EventPayload.lots_in s i)).sum) := by
  induction payloads with
  | nil => exact ⟨rfl,rfl⟩
  | cons payload rest ih =>
    have one : (((payload.posting.toList.flatMap (SimulationEvent.entries s.ledger.terms s.simulation)).map
        (Entry.cash_in c)).sum = payload.cash_in s c) ∧
        ((payload.posting.toList.flatMap (SimulationEvent.entries s.ledger.terms s.simulation)).map
        (Entry.lots_in i)).sum = payload.lots_in s i := by
      cases payload with
      | Simulation event =>
        cases event with
        | ScheduledActionApplied action_id =>
          simp only [EventPayload.posting,SimulationEvent.posts,if_true,Option.toList,List.flatMap_singleton,
            SimulationEvent.entries,EventPayload.cash_in,EventPayload.lots_in]
          cases s.simulation.action action_id with
          | none => exact ⟨rfl,rfl⟩
          | some action => exact ⟨action_cash _ _ action c,action_lots _ _ action i⟩
        | FineApplied participant currency amount reason =>
          simp [EventPayload.posting,SimulationEvent.posts,SimulationEvent.entries,EventPayload.cash_in,
            EventPayload.lots_in,Entry.cash_in,Entry.lots_in]
        | TenderSettled tender participant instrument side quantity price =>
          simp only [EventPayload.posting,SimulationEvent.posts,if_true,Option.toList,List.flatMap_singleton,
            SimulationEvent.entries,EventPayload.cash_in,EventPayload.lots_in]
          cases s.ledger.terms.get? instrument <;> simp [Entry.cash_in,Entry.lots_in]
        | OtcSettled negotiation buyer seller instrument quantity price =>
          -- What the buyer pays and gets, the seller gets and gives.
          simp only [EventPayload.posting,SimulationEvent.posts,if_true,Option.toList,List.flatMap_singleton,
            SimulationEvent.entries,EventPayload.cash_in,EventPayload.lots_in]
          cases s.ledger.terms.get? instrument with
          | none => exact ⟨rfl,rfl⟩
          | some T =>
            simp only [Option.elim_some,List.map_cons,List.map_nil,List.sum_cons,List.sum_nil,Entry.cash_in,Entry.lots_in]
            constructor <;> split_ifs <;> omega
        | _ => exact ⟨rfl,rfl⟩
      | _ => exact ⟨rfl,rfl⟩
    obtain ⟨cash,lots⟩ := ih
    have split : (payload :: rest).filterMap EventPayload.posting =
        payload.posting.toList ++ rest.filterMap EventPayload.posting := by
      cases posts : payload.posting <;> simp [posts]
    rw [split,List.flatMap_append,List.map_append,List.map_append,List.sum_append,List.sum_append,cash,lots,one.1,one.2,
      List.map_cons,List.map_cons,List.sum_cons,List.sum_cons]
    exact ⟨rfl,rfl⟩

/-- What the ledger holds after the step is what the transition left. -/
theorem Stepped.ledger {t : Transition} (stepped : Stepped s input applied s' t) :
    s'.ledger = t.run.ledger := by
  obtain ⟨_,_,_,_,_,rfl⟩ := stepped.leaves
  rfl

theorem totals_change_by_postings (reachable : Reachable scenario s) (ran : input.step.run s = .ok applied s')
    (c : CurrencyId) (i : InstrumentId) :
    s'.ledger.total_cash c = s.ledger.total_cash c +
      (applied.events.map (fun event => event.payload.cash_in s c)).sum ∧
    s'.ledger.total_lots i = s.ledger.total_lots i +
      (applied.events.map (fun event => event.payload.lots_in s i)).sum := by
  obtain ⟨t,stepped⟩ := Input.stepped reachable.sane ran
  obtain ⟨F,stage,inv,_⟩ := stepped.ended
  have payloads (f : EventPayload → Int) : applied.events.map (fun event => f event.payload) = t.payloads.map f := by
    rw [← stepped.payloads,List.map_map]
    rfl
  obtain ⟨cash,lots⟩ := posted_totals s t.payloads c i
  rw [inv.emitted.posting] at cash lots
  rw [stepped.ledger,inv.balanced.cash,inv.balanced.lots,stage.cash,stage.lots,cash,lots,payloads,payloads]
  exact ⟨rfl,rfl⟩

theorem totals_change_by_postings_fine : ∃ s applied s', Reachable sample s ∧
    (ask 1 2 9 (.ApplyFine 1 1 5 "late")).step.run s = .ok applied s' ∧
    s'.ledger.total_cash 1 = s.ledger.total_cash 1 - 5 := by
  obtain ⟨s,applied,s',reachable,ran,sum⟩ := @play_steps sample sample_codec
    [place 0 1 7 1 .Buy 10 (.Limit 5)] (ask 1 2 9 (.ApplyFine 1 1 5 "late"))
    (fun s applied _ => (applied.events.map (fun event => event.payload.cash_in s 1)).sum = -5) (by decide +kernel)
  obtain ⟨cash,_⟩ := totals_change_by_postings reachable ran 1 1
  refine ⟨s,applied,s',reachable,ran,?_⟩
  rw [cash,sum]
  rfl

/-! ### Reservations -/

theorem reservations_are_those_of_live_orders (reachable : Reachable scenario s) (p : ParticipantId) (i : InstrumentId)
    (c : CurrencyId) :
    (s.ledger.position_of p i).open_buy = s.ownership.sum (fun _ owned =>
      if owned.state = .Active ∧ owned.participant_id = p ∧ owned.side = .Buy ∧ owned.listing_key.instrument_id = i
      then owned.remaining_quantity else 0) ∧
    (s.ledger.position_of p i).open_sell = s.ownership.sum (fun _ owned =>
      if owned.state = .Active ∧ owned.participant_id = p ∧ owned.side = .Sell ∧ owned.listing_key.instrument_id = i
      then owned.remaining_quantity else 0) ∧
    (s.ledger.cash_of p c).reserved = s.ownership.sum (fun _ owned =>
      if owned.state = .Active ∧ owned.participant_id = p ∧ owned.side = .Buy ∧
        currency_of s.ledger.terms owned.listing_key.instrument_id = c
      then owned.reservation.cash_per_lot * owned.remaining_quantity else 0) ∧
    (s.ledger.position_of p i).reserved = s.ownership.sum (fun _ owned =>
      if owned.state = .Active ∧ owned.participant_id = p ∧ owned.side = .Sell ∧ owned.listing_key.instrument_id = i ∧
        owned.reservation.inventory = true
      then owned.remaining_quantity else 0) := by
  have reserved := ((reachable.sane.inv 0).balanced.accounts).reserved
  have held (counter : Counter) (f : OwnedOrder → Int) (same : ∀ owned, owned.holds s.ledger.terms counter = f owned) :
      counter.read s.ledger = s.ownership.sum (fun _ owned => f owned) := by
    rw [reserved counter,Bunting.held]
    exact OrdMap.sum_congr fun _ owned _ => same owned
  refine ⟨held (.OpenBuy p i) _ fun owned => ?_,held (.OpenSell p i) _ fun owned => ?_,held (.Cash p c) _ fun owned => ?_,
    held (.Inventory p i) _ fun owned => ?_⟩ <;>
  · unfold OwnedOrder.holds OwnedOrder.entry Entry.opening Counter.change
    cases owned.side <;> simp only [] <;> split_ifs <;> simp_all

theorem reservations_are_those_of_live_orders_resting : ∃ s, Reachable sample s ∧
    (s.ledger.position_of 1 1).open_buy = 10 ∧ (s.ownership.sum (fun _ owned =>
      if owned.state = .Active ∧ owned.participant_id = 1 ∧ owned.side = .Buy ∧ owned.listing_key.instrument_id = 1
      then owned.remaining_quantity else 0) = 10) := by
  obtain ⟨start,history,s,starts,runs,ten⟩ := @play_reaches sample sample_codec [place 0 1 7 1 .Buy 10 (.Limit 5)]
    (fun _ s => (s.ledger.position_of 1 1).open_buy = 10) (by decide +kernel)
  have reachable : Reachable sample s := ⟨start,history,starts,runs⟩
  obtain ⟨open_buy,_⟩ := reservations_are_those_of_live_orders reachable 1 1 1
  exact ⟨s,reachable,ten,open_buy.symm.trans ten⟩

end Conservation

end Bunting
