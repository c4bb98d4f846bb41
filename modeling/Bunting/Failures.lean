import Bunting.Transitions
import Bunting.Cancellation
import Bunting.Exposure

/-!
What can stop a step of a run: no settlement where the live orders have the cash
they hold, and of a clock tick an overflow only where what is due can be posted.
-/

namespace Bunting
open Stateful

/-- The step goes through, or fails for one of the causes. -/
def StopsBy (causes : Cause → Prop) : EStateM.Result ApplyError RunState Applied → Prop
  | .ok .. => True
  | .error e _ => causes e.fault.cause

/-- What an auction and the end of a day need. -/
def RunState.Vouched (run : RunState) (time : Nat) : Prop := run.setup.Cheap ∧ run.Funded time ∧ run.Rated time

variable {scenario : ScenarioDefinition} {s : RunState} {next : Nat}

/-- Where the live orders have the cash they hold, the ledger refuses no execution of a command, be it of an auction the
    command catches up with or of its own order. -/
theorem commands_settle_where_funded {command : Command} {key : Option ListingKey} (reachable : Reachable scenario s)
    (cheap : s.setup.Cheap) (funded : s.Funded command.logical_time)
    (passes : s.preflight command.run_id command.expected_sequence = .ok next)
    (resolves : s.resolve_listing command.payload = .ok key) (in_time : s.simulation.clock.now ≤ command.logical_time) :
    StopsBy (fun cause => ∀ d, cause ≠ .Settlement d) ((RunState.apply command).run s) := by
  have caught := @catch_up_meets [] s True False command.logical_time reachable.sane (fun _ => cheap) (fun _ => funded)
    False.elim false (by simp)
  have meets : Meets (fun t => ({ run := s } : Transition) = t) (apply_validated command next key) (fun _ _ => True)
      (Unsettled True) := by
    refine (caught.fault fun _ _ stalls d settling => (stalls.2.2 d settling).1).bind fun _ t ready => ?_
    obtain ⟨F,ready⟩ := ready
    have performs := perform_meets ready.caught.opened ready.inv ready.stage.now resolves
    refine (performs.fault fun _ _ unsettled d settling _ => unsettled d settling (ready.stage.covered trivial)).bind
      (fun answer u performed => ?_) t rfl
    obtain ⟨⟨_,_,inv⟩,_⟩ := performed
    exact ((finish_meets inv.emitted.aligned).fault fun _ _ large => unsettled_overflow large) u rfl
  have moved := apply_eq passes resolves in_time
  split at moved
  · rw [moved]
    trivial
  · next failed =>
    obtain ⟨e,s',failed',rfl⟩ := moved
    rw [failed']
    exact fun d settling => meets.error rfl failed d settling trivial

/-- A run in which a bid rests before the auction and a coupon is due before it. -/
theorem sample_bid_rests : ∃ start history s, Starts sample_days start ∧ Runs start history s ∧ active s.ownership = 1 ∧
    s.simulation.due 20 = [⟨1,18,.Cashflow 1 1 50⟩] ∧ s.due_boundary 20 ≠ none ∧ s.preflight 1 2 = .ok 3 ∧
    s.simulation.clock.now ≤ 20 ∧ s.simulation.lifecycle = .Active ∧ s.fx_rates = [] ∧
    s.resolve_listing (.SubmitOrder ⟨8,1,2,.Sell,4,.Limit 5,false⟩) = .ok (some ⟨1,1⟩) ∧
    (∀ key ∈ s.ledger.cash.keys, (ofLex key).2 = s.setup.reporting_currency) ∧
    (∀ e ∈ s.due_entries 20, e.currency = s.setup.reporting_currency) ∧ ∀ owned ∈ s.ownership.values,
      let currency := currency_of s.ledger.terms owned.listing_key.instrument_id
      let cash := s.ledger.cash_of owned.participant_id currency
      cash.reserved ≤ cash.balance + ((s.due_entries 20).map (Entry.paid owned.participant_id currency)).sum :=
  @play_reaches sample_days sample_codec
    [place 0 12 7 1 .Buy 10 (.Limit 5),ask 1 12 1 (.ScheduleCashflow 1 1 50 18 "coupon")] _ (by decide +kernel)

theorem sample_bid_funded (held : ∀ owned ∈ s.ownership.values,
      let currency := currency_of s.ledger.terms owned.listing_key.instrument_id
      let cash := s.ledger.cash_of owned.participant_id currency
      cash.reserved ≤ cash.balance + ((s.due_entries 20).map (Entry.paid owned.participant_id currency)).sum) : s.Funded 20 := by
  rintro p c _ ⟨id,owned,found,_,rfl,_,rfl⟩
  exact held owned (OrdMap.mem_values.mpr ⟨id,found⟩)

theorem sample_days_cheap : sample_days.Cheap := by unfold ScenarioDefinition.Cheap; decide

theorem commands_settle_where_funded_resting : ∃ s, active s.ownership = 1 ∧
    StopsBy (fun cause => ∀ d, cause ≠ .Settlement d) ((place 2 20 8 2 .Sell 4 (.Limit 5)).step.run s) := by
  obtain ⟨start,history,s,starts,runs,live,_,_,passes,now,_,_,resolves,_,_,held⟩ := sample_bid_rests
  have reachable : Reachable sample_days s := ⟨start,history,starts,runs⟩
  exact ⟨s,live,commands_settle_where_funded reachable (reachable.cheap sample_days_cheap) (sample_bid_funded held) passes
    resolves now⟩

variable {request : SimulationCommandRequest}

/-- A tick that has caught up fails by overflow only. -/
theorem tick_error {F : Frame} {t u : Transition} {covered valued : Prop} {fault : Fault}
    (ready : Ready s request.logical_time covered valued F t) (tick : request.payload = .ClockTick)
    (failed : (perform_simulation request).run t = .error fault u) : fault.cause = .Overflow := by
  have now : ¬ request.logical_time < t.run.simulation.clock.now := by
    rw [ready.inv.simulation,ready.caught.clock]
    exact lt_irrefl _
  have idles : (SimulationState.apply t.run.context request.actor request.logical_time .ClockTick).run
      ⟨t.run.simulation,t.run.ledger⟩ = .ok [] ⟨t.run.simulation,t.run.ledger⟩ := by
    simp [SimulationState.apply,run_refuse,now]
  simp only [perform_simulation,tick,simulate,on_simulation,emit,returned,raised,idles,reduceCtorEq,false_and] at failed
  obtain ⟨events,u,⟨w,ran,rfl⟩,failed⟩ := failed
  cases ran
  have inv : Inv F { t with payloads := t.payloads ++ [] } := Core.emit ready.inv (by simp)
  exact (expire_due_meets _).error inv failed

/-- A clock tick goes through or fails by overflow, if the actions due can settle one after the other and a boundary due
    has what it needs. -/
theorem ticks_fail_by_overflow_only (reachable : Reachable scenario s) (tick : request.payload = .ClockTick)
    (passes : s.preflight request.run_id request.expected_sequence = .ok next)
    (active : s.simulation.lifecycle = .Active) (in_time : s.simulation.clock.now ≤ request.logical_time)
    (settles : s.DueSettles request.logical_time)
    (vouched : s.due_boundary request.logical_time = none ∨ s.Vouched request.logical_time) :
    StopsBy (· = .Overflow) ((RunState.apply_simulation request).run s) := by
  have moved := apply_simulation_eq passes in_time fun _ => active
  split at moved
  · rw [moved]
    trivial
  next failed =>
  obtain ⟨e,s',failed',rfl⟩ := moved
  rw [failed']
  show e.fault.cause = .Overflow
  have caught := @catch_up_meets _ s (s.Vouched request.logical_time) (s.Vouched request.logical_time) request.logical_time
    reachable.sane And.left (fun sure => sure.2.1) (fun sure => sure.2.2) (request.payload = .ClockTick)
    ((Input.Request request).opens_quiet s)
  simp only [apply_simulation_validated,announce_tick,emit,returned,raised] at failed
  rcases failed with stalled | ⟨t,catches,failed⟩
  · -- Of what catching up can fail with only an overflow is left.
    obtain ⟨resting,other,settling⟩ := caught.error rfl stalled
    cases cause : e.fault.cause with
    | Overflow => rfl
    | Resting => exact absurd cause resting
    | Other => exact (vouched.elim (other cause in_time settles).2 (other cause in_time settles).1).elim
    | Settlement d => exact (vouched.elim (settling d cause).2 (settling d cause).1).elim
  · obtain ⟨F,ready⟩ := caught.ok rfl catches
    rcases failed with failed | ⟨u,performs,failed⟩
    · exact tick_error ready tick failed
    · have ends := (perform_simulation_meets ready.inv (ready.standing reachable.sane)).ok rfl performs
      rcases ends with ⟨_,inv,_⟩ | ⟨staged,_⟩
      · exact (finish_meets inv.emitted.aligned).error rfl failed
      · rw [tick] at staged
        cases staged

/-- The tick posts a coupon and crosses into the auction of a book with a bid. -/
theorem ticks_fail_by_overflow_only_resting : ∃ s, active s.ownership = 1 ∧ (s.simulation.due 20).length = 1 ∧
    s.due_boundary 20 ≠ none ∧ StopsBy (· = .Overflow) ((ask 2 20 1 .ClockTick).step.run s) := by
  obtain ⟨start,history,s,starts,runs,live,due,crosses,passes,now,running,rates,_,cash,posts,held⟩ := sample_bid_rests
  have reachable : Reachable sample_days s := ⟨start,history,starts,runs⟩
  have settles : s.DueSettles 20 := by
    intro earlier action later split
    obtain rfl : action = ⟨1,18,.Cashflow 1 1 50⟩ := by
      have member : action ∈ earlier ++ action :: later := by simp
      rw [← split,due] at member
      exact List.mem_singleton.mp member
    exact one_ne_zero
  have rated : s.Rated 20 := by
    refine ⟨by simp [rates],fun p c _ holds => .inl ?_⟩
    rcases holds with there | ⟨e,member,_,rfl⟩
    · obtain ⟨_,found⟩ := OrdMap.contains_iff.mp there
      exact cash _ (OrdMap.mem_keys.mpr ⟨_,found⟩)
    · exact posts e member
  exact ⟨s,live,by rw [due]; rfl,crosses,ticks_fail_by_overflow_only reachable rfl passes running now settles
    (.inr ⟨reachable.cheap sample_days_cheap,sample_bid_funded held,rated⟩)⟩

end Bunting
