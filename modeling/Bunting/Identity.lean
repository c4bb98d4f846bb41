import Bunting.Runs

/-!
What a run is called. No transition of the engine touches the run's id or the
hash of its scenario: every change is to a part beside them. A refused input
changes nothing at all, and a committed one moves the run on by one sequence
number.
-/

namespace Bunting
open Stateful

/-- The run's id and the scenario it runs. -/
def RunState.identity (run : RunState) : RunId × String := (run.run_id,run.scenario_hash)

/-- What no transition touches before it commits: what the run is called, and how many events it has committed. -/
def RunState.fixed (run : RunState) : RunId × String × Nat := (run.run_id,run.scenario_hash,run.event_sequence)

def Transition.identity (t : Transition) : RunId × String × Nat := t.run.fixed

/-- The engine reports something else than that the lifecycle forbids the request. -/
def Permits (fault : Fault) : Prop := fault.error ≠ .Simulation .InvalidLifecycle

instance (fault : Fault) : Decidable (Permits fault) := inferInstanceAs (Decidable (_ ≠ _))

theorem permits_simulation {e : SimulationError} (other : e ≠ .InvalidLifecycle) : Permits (.simulation e) :=
  fun same => other (EngineError.Simulation.inj same)

/-- What the engine does to orders and sessions leaves the fixed part alone and runs into anything but the lifecycle. -/
abbrev Modest {α : Type} (m : Engine α) : Prop := Steady Transition.identity Permits m

section Engine
variable {α : Type} {key : ListingKey} {id maker_id taker_id : OrderId} {price quantity : Int} {reason : CancelReason}
  {venue : VenueId} {boundary : Boundary}

theorem posting_modest {fault : LedgerError → Fault} {m : EStateM LedgerError Ledger α}
    (permits : ∀ e, Permits (fault e)) : Modest (posting fault m) := .zoom (.any m) (fun _ _ => rfl) fun e _ => permits e

theorem accounting_permits (e : LedgerError) : Permits (.accounting e) := fun same => (nomatch same)
theorem settling_permits (e : LedgerError) : Permits (.settling e) := fun same => (nomatch same)

theorem set_book_fixed (run : RunState) (key : ListingKey) (book : Book) : (run.set_book key book).fixed = run.fixed := by
  unfold RunState.set_book
  split <;> rfl

theorem on_book_modest (key : ListingKey) {fault : BookError → Fault} {m : EStateM BookError Book α}
    (permits : ∀ e, Permits (fault e)) : Modest (on_book key fault m) :=
  .get fun _ => .bind (.orElse (by decide)) fun _ =>
    .zoom (.any m) (fun book t => set_book_fixed t.run key book) fun e _ => permits e

theorem booking_permits (e : BookError) : Permits (.booking e) := fun same => (nomatch same)
theorem resting_permits (e : BookError) : Permits (.resting e) := fun same => (nomatch same)

theorem emit_modest {payloads : List EventPayload} : Modest (emit payloads) := .modify fun _ => rfl

theorem touch_modest : Modest (touch key) := .modify fun _ => rfl

theorem unrest_modest : Modest (unrest key id) := by
  refine .get fun _ => .bind (.orElse (by decide)) fun _ => ?_
  exact .bind (.modify fun t => set_book_fixed t.run key _) fun _ => .orElse (by decide)

theorem cancel_modest : Modest (cancel id reason) := by
  refine .get fun _ => .bind (.orElse (by decide)) fun _ => ?_
  refine .bind unrest_modest fun _ => ?_
  refine .bind (.refuse (by decide)) fun _ => ?_
  refine .bind (posting_modest accounting_permits) fun _ => ?_
  exact .bind (.modify fun _ => rfl) fun _ => emit_modest

theorem cancel_all_modest {orders : List (OrderId × ListingKey)} :
    Modest (cancel_all reason orders) :=
  .forM fun _ _ => .bind touch_modest fun _ => cancel_modest

theorem expire_due_modest {now : Nat} : Modest (expire_due now) := by
  have loop (fuel : Nat) : Modest (expire_loop now fuel) := by
    induction fuel with
    | zero => exact .pure _
    | succ fuel ih =>
      refine .get fun t => ?_
      split
      · exact .pure _
      · refine .ite (.pure _) (.bind (.orElse (by decide)) fun _ => ?_)
        exact .bind touch_modest fun _ => .bind cancel_modest fun _ => ih
  exact .get fun _ => loop _

theorem reduce_order_modest : Modest (reduce_order id quantity) := by
  refine .get fun _ => .bind (.orElse (by decide)) fun _ => ?_
  refine .bind (.orElse (by decide)) fun _ => ?_
  refine .bind (.refuse (by decide)) fun _ => ?_
  exact .bind (.modify fun _ => rfl) fun _ => .pure _

theorem drop_filled_expiry_fixed (run : RunState) (id : OrderId) (time : Option Nat) :
    (drop_filled_expiry id time run).fixed = run.fixed := by
  unfold drop_filled_expiry
  split
  · rfl
  · split <;> rfl

theorem record_fill_modest {maker taker : OwnedOrder} {auction : Bool} {trade : EventPayload} :
    Modest (record_fill key maker_id taker_id maker taker price quantity auction trade) := by
  refine .bind (.modify fun _ => rfl) fun _ => ?_
  refine .bind reduce_order_modest fun _ => .bind emit_modest fun _ => ?_
  refine .bind reduce_order_modest fun _ => .bind emit_modest fun _ => ?_
  refine .bind (.modify fun t => ?_) fun _ => emit_modest
  change RunState.fixed (if auction then _ else _) = t.run.fixed
  split
  · rw [drop_filled_expiry_fixed,drop_filled_expiry_fixed]
  · rw [drop_filled_expiry_fixed]

theorem settle_fill_modest {auction : Bool} :
    Modest (settle_fill key maker_id taker_id price quantity auction) := by
  have fee (per_lot : Int) : Modest (liftM (per_lot_fee per_lot quantity)) := .lift (.orElse (by decide))
  refine .get fun _ => .bind (.orElse (by decide)) fun listing => ?_
  refine .bind (.orElse (by decide)) fun maker => ?_
  refine .bind (.orElse (by decide)) fun taker => ?_
  refine .bind (.refuse (by decide)) fun _ => ?_
  refine .bind (fee _) fun maker_fee => .bind (fee _) fun taker_fee => ?_
  exact .bind (posting_modest settling_permits) fun _ => record_fill_modest

theorem auction_modest : Modest (auction key) := by
  refine .get fun t => .bind (.orElse (by decide)) fun listing => ?_
  split
  · exact .pure _
  · exact .bind (on_book_modest _ booking_permits) fun _ => .bind (.forM fun cross _ =>
      .ite settle_fill_modest settle_fill_modest) fun _ => emit_modest

theorem settle_day_modest {day : Nat} : Modest (settle_day day) := by
  refine .get fun _ => .bind (.forM fun _ _ => posting_modest accounting_permits) fun _ => ?_
  refine .get fun _ => .bind (posting_modest accounting_permits) fun _ => ?_
  exact .bind (.orElse (by decide)) fun _ => .pure _

theorem close_day_fixed (run : RunState) (venue : VenueId) : (run.close_day venue).1.fixed = run.fixed := by
  have each (keys : List ListingKey) (state : RunState × List ClosingPrice) :
      (keys.foldl RunState.close_listing state).1.fixed = state.1.fixed := by
    induction keys generalizing state with
    | nil => rfl
    | cons key keys ih =>
      rw [List.foldl_cons,ih]
      unfold RunState.close_listing
      dsimp only
      split <;> rfl
  exact each _ _

theorem record_close_modest : Modest (record_close venue boundary) := by
  refine .ite (.update (fun t => close_day_fixed t.run venue) fun _ => ?_) (.pure _)
  refine .bind emit_modest fun _ => .get fun _ => ?_
  exact .ite (.bind settle_day_modest fun _ => emit_modest) (.pure _)

theorem cross_boundary_modest {step : Nat} :
    Modest (cross_boundary venue step boundary) := by
  have uncross : Modest (uncross_venue venue boundary.phase) :=
    .ite (.get fun _ => .forM fun _ _ => .bind touch_modest fun _ => auction_modest) (.pure _)
  have expire : Modest (expire_day_orders venue boundary.phase) :=
    .ite (.get fun _ => .forM fun _ _ => cancel_modest) (.pure _)
  refine .bind (.orElse (by decide)) fun next => ?_
  refine .bind (.modify fun _ => rfl) fun _ => ?_
  refine .bind uncross fun _ => .bind expire fun _ => ?_
  exact .bind emit_modest fun _ => record_close_modest

/-- A due action fails on the ledger, on what it names or on what it asks for. -/
theorem SimulationState.catch_up_permits (time : Nat) (sweep : Bool) :
    Steady (fun _ => ()) (· ≠ .InvalidLifecycle) (SimulationState.catch_up time sweep) := by
  have ledger {α : Type} (m : EStateM LedgerError Ledger α) : Steady (fun _ => ()) (· ≠ .InvalidLifecycle) (on_ledger m) :=
    .zoom (.any m) (fun _ _ => rfl) fun e _ => by simp
  have applies (action : ScheduledAction) : Steady (fun _ => ()) (· ≠ .InvalidLifecycle) (apply_one action) := by
    refine .bind ?_ fun _ => .modify fun _ => rfl
    unfold apply_scheduled
    split
    · exact ledger _
    · refine .get fun world => .bind (.orElse (by simp)) fun _ => .bind (.orElse (by simp)) fun _ => ?_
      exact .bind (ledger _) fun _ => .modify fun _ => rfl
    · exact .modify fun _ => rfl
    · exact .throw (by simp)
    · exact .throw (by simp)
  refine .get fun world => .bind (.refuse (by simp)) fun _ => .bind (.modify fun _ => rfl) fun _ => ?_
  refine .bind ?_ fun _ => .bind ?_ fun _ => .pure _
  · refine .get fun world => .bind (.modify fun _ => rfl) fun _ => ?_
    exact .bind (.forM fun action _ => applies action) fun _ => .pure _
  · exact .ite (.get fun world => .bind (.modify fun _ => rfl) fun _ => .pure _) (.pure _)

theorem catch_up_modest {time : Nat} {sweep : Bool} : Modest (catch_up time sweep) := by
  have crosses (fuel : Nat) : Modest (cross_boundaries time fuel) := by
    induction fuel with
    | zero => exact .pure _
    | succ fuel ih =>
      refine .get fun t => ?_
      split
      · exact .pure _
      · exact .bind expire_due_modest fun _ => .bind cross_boundary_modest fun _ => ih
  have world := SimulationState.catch_up_permits time sweep
  refine .bind (.zoom world (fun _ _ => rfl) fun _ other => permits_simulation other) fun _ => ?_
  exact .bind emit_modest fun _ => .get fun _ => .bind (crosses _) fun _ => expire_due_modest

theorem submit_modest {order : SubmitOrder} {now : Nat} :
    Modest (submit order key now) := by
  refine .get fun t => .bind (.orElse (by decide)) fun listing => ?_
  split
  · exact .pure _
  · next ticket _ =>
    have accepts : Modest (accept order key ticket) := by
      refine .bind (posting_modest accounting_permits) fun _ => .bind (.modify fun _ => rfl) fun _ => ?_
      refine .get fun _ => .bind (.orElse (by decide)) fun _ => ?_
      exact .bind (.modify fun _ => rfl) fun _ => emit_modest
    have takes : Modest (match_order order key ticket) := by
      refine .get fun _ => .ite (.bind (on_book_modest _ booking_permits) fun found => ?_) (.pure _)
      exact .bind (.forM fun _ _ => settle_fill_modest) fun _ => .pure _
    have rests (remaining : Int) : Modest (settle_remainder order key ticket remaining) := by
      refine .ite emit_modest ?_
      split
      · exact .bind (on_book_modest _ resting_permits) fun _ => .bind (.modify fun _ => rfl) fun _ => emit_modest
      · refine .bind (posting_modest accounting_permits) fun _ => .get fun _ => .bind (.orElse (by decide)) fun _ => ?_
        exact .bind (.modify fun _ => rfl) fun _ => emit_modest
    exact .bind accepts fun _ => .bind takes fun _ => .bind (rests _) fun _ => .pure _

theorem answer_order_modest {outcome : Except RejectCode Unit} :
    Modest (answer_order id outcome) := by
  cases outcome with
  | ok _ => exact .pure _
  | error code => exact .bind emit_modest fun _ => .pure _

theorem perform_modest {command : Command} {key : Option ListingKey} : Modest (perform command key) := by
  have submits (order : SubmitOrder) : Modest (submit_command order key command.logical_time) := by
    refine .bind (.orElse (by decide)) fun _ => .bind emit_modest fun _ => .bind ?_ fun _ => answer_order_modest
    exact .get fun _ => .ite (.pure _) (.ite (.pure _) (.ite (.pure _)
      (.bind touch_modest fun _ => submit_modest)))
  have cancels (request : CancelOrder) : Modest (cancel_requested request) := by
    refine .get fun t => ?_
    split
    · exact .pure _
    · exact .ite (.pure _) (.ite (.pure _) (.bind touch_modest fun _ => .bind cancel_modest fun _ => .pure _))
  unfold perform
  split
  · exact submits _
  · exact submits _
  · exact .bind (cancels _) fun _ => answer_order_modest
  · exact .bind (.bind (.modify fun _ => rfl) fun _ => .bind emit_modest fun _ => .get fun _ =>
      cancel_all_modest) fun _ => .pure _
  · exact .bind (.bind (.modify fun _ => rfl) fun _ => emit_modest) fun _ => .pure _

theorem perform_simulation_steady (request : SimulationCommandRequest) :
    Steady Transition.identity (fun _ => True) (perform_simulation request) := by
  have also {α : Type} {m : Engine α} (modest : Modest m) : Steady Transition.identity (fun _ => True) m :=
    modest.imp (fun _ _ same => same) fun _ _ => trivial
  unfold perform_simulation
  split
  · exact .get fun _ => .bind (also cancel_all_modest) fun _ => also emit_modest
  · exact .get fun _ => .bind (.zoom (.any _) (fun _ _ => rfl) fun _ _ => trivial) fun _ => .bind (also emit_modest)
      fun _ => .get fun _ => also expire_due_modest

end Engine

section Entry
variable {s s' : RunState} {applied : Applied} {input : Input} {m : Engine Applied} {e : ApplyError}

/-- Up to its commit a command leaves alone what is fixed. -/
theorem Applies.fixed {command : Command} {caught t : Transition} (applies : Applies command s applied s' caught t) :
    caught.run.fixed = s.fixed ∧ t.run.fixed = s.fixed := by
  have first : caught.run.fixed = s.fixed := catch_up_modest.ok applies.catches
  obtain ⟨_,_,_,performs,_⟩ := applies.performs
  exact ⟨first,(perform_modest.ok performs).trans first⟩

theorem Simulates.fixed {request : SimulationCommandRequest} {announced caught t : Transition}
    (simulates : Simulates request s applied s' announced caught t) : t.run.fixed = s.fixed := by
  have first : caught.run.fixed = announced.run.fixed := catch_up_modest.ok simulates.catches
  have last : t.run.fixed = caught.run.fixed := (perform_simulation_steady _).ok simulates.performs
  rw [last,first,simulates.announces]

section
variable (ran : input.step.run s = .ok applied s')
include ran

theorem Input.step_commits : ∃ t market market_by_listing, t.run.fixed = s.fixed ∧
    s' = .committed t (s.sequence + 1) market market_by_listing := by
  cases input with
  | Command command =>
    obtain ⟨_,t,applies⟩ := apply_ok ran
    obtain ⟨_,_,same⟩ := applies.commits
    exact ⟨t,_,_,applies.fixed.2,same⟩
  | Request request =>
    obtain ⟨_,_,t,simulates⟩ := apply_simulation_ok ran
    obtain ⟨_,_,same⟩ := simulates.commits
    exact ⟨t,_,_,simulates.fixed,same⟩

theorem Input.step_identity : s'.identity = s.identity := by
  obtain ⟨t,market,market_by_listing,fixed,rfl⟩ := Input.step_commits ran
  obtain ⟨_,_,_,committed,_⟩ := RunState.committed_eq t (s.sequence + 1) market market_by_listing
  obtain ⟨run_id,scenario,_⟩ : t.run.run_id = s.run_id ∧ t.run.scenario_hash = s.scenario_hash ∧ _ := by
    simpa [RunState.fixed] using fixed
  rw [committed]
  exact Prod.ext run_id scenario

theorem Input.step_sequence : s'.sequence = s.sequence + 1 := by
  obtain ⟨t,market,market_by_listing,_,rfl⟩ := Input.step_commits ran
  obtain ⟨_,_,_,same,_⟩ := RunState.committed_eq t (s.sequence + 1) market market_by_listing
  rw [same]

theorem Input.step_preflight : to_u64 (s.sequence + 1) = some (s.sequence + 1) := by
  have fits {run_id : RunId} {expected next : Nat} (checks : s.preflight run_id expected = .ok next) :
      to_u64 (s.sequence + 1) = some (s.sequence + 1) := by
    simp only [RunState.preflight,returned] at checks
    obtain ⟨_,fits⟩ := checks
    rw [fits,to_u64_some fits]
  cases input with
  | Command command =>
    simp only [Input.step,RunState.apply,returned,unchanged_eq_ok] at ran
    obtain ⟨_,checks,_⟩ := ran
    exact fits checks
  | Request request =>
    simp only [Input.step,RunState.apply_simulation,returned,unchanged_eq_ok] at ran
    obtain ⟨_,checks,_⟩ := ran
    exact fits checks

end

theorem unchanged_of_staged (failed : (staged m).run s = .error e s') : s' = s := by
  have same := failed
  rw [EStateM.run,staged] at same
  split at same
  · cases same
  · cases same
    rfl

theorem poisoned_of_in_place (failed : (in_place m).run s = .error e s') :
    ∃ fault, e = .Poisoned fault := by
  have same := failed
  rw [EStateM.run,in_place] at same
  split at same
  · cases same
  · cases same
    exact ⟨_,rfl⟩

theorem unchanged_eq_error {α : Type} {x : Except Fault α} (failed : (unchanged x).run s = .error e s') :
    s' = s := by
  cases x with
  | ok => cases failed
  | error =>
    cases failed
    rfl

/-- An input that is refused without a change leaves the run as it was. -/
theorem Input.step_unchanged {fault : Fault} (failed : input.step.run s = .error (.Unchanged fault) s') : s' = s := by
  have staged_or_not {c : Prop} [Decidable c] {m n : Engine Applied}
      (failed : (if c then staged m else in_place n : EStateM ApplyError RunState Applied).run s =
        .error (.Unchanged fault) s') : s' = s := by
    split_ifs at failed
    · exact unchanged_of_staged failed
    · obtain ⟨_,same⟩ := poisoned_of_in_place failed
      cases same
  cases input with
  | Command command =>
    simp only [Input.step,RunState.apply,returned,raised,unchanged_eq_ok] at failed
    rcases failed with failed | ⟨_,_,failed | ⟨_,_,⟨_,_,same⟩ | ⟨_,failed⟩⟩⟩
    · exact unchanged_eq_error failed
    · exact unchanged_eq_error failed
    · exact same.symm
    · exact staged_or_not failed
  | Request request =>
    simp only [Input.step,RunState.apply_simulation,returned,raised,unchanged_eq_ok] at failed
    rcases failed with failed | ⟨_,_,⟨_,_,same⟩ | ⟨_,⟨_,_,same⟩ | ⟨_,failed⟩⟩⟩
    · exact unchanged_eq_error failed
    · exact same.symm
    · exact same.symm
    · split_ifs at failed
      · obtain ⟨_,same⟩ := poisoned_of_in_place failed
        cases same
      · exact unchanged_of_staged failed

end Entry
end Bunting
