import Bunting.Identity

/-!
The transitions of a simulation request on a state of one's own. Beside
`apply_simulation`, which changes a run in place, the engine has a pair of entry
points that return the next run and skip its first checks: the clock of a run
that is not active refuses no tick.
-/

namespace Bunting
open Stateful

/-- The committed facts of a transition with the run it leads to. -/
structure TransitionOutcome where
  candidate : RunState
  events : List EventEnvelope
  accepted : Bool
  reject_code : Option String
  order_id : Option OrderId
  changed_listings : OrdSet ListingKey
  deriving DecidableEq

def Applied.into_outcome (applied : Applied) (candidate : RunState) : TransitionOutcome :=
  ⟨candidate,applied.events,applied.accepted,applied.reject_code,applied.order_id,applied.changed_listings⟩

namespace RunState

/-- Consuming simulation transition; an error drops the state. -/
def transition_simulation_owned (run : RunState) (request : SimulationCommandRequest) :
    Except Fault TransitionOutcome := do
  let next ← run.preflight request.run_id request.expected_sequence
  match (apply_simulation_validated request next).run { run } with
  | .ok applied t => pure (applied.into_outcome t.run)
  | .error fault _ => throw fault

/-- Immutable simulation transition: the consuming one on a copy. -/
def transition_simulation (run : RunState) (request : SimulationCommandRequest) : Except Fault TransitionOutcome :=
  run.transition_simulation_owned request

end RunState

/-! ### Failures other than one -/

theorem project_event_permits (sim : SimulationState) (time : Nat) (payload : EventPayload) :
    FailsOnly (· ≠ .InvalidLifecycle) (sim.project_event time payload) := by
  intro e failed
  by_cases aligned : payload.Aligned
  · cases project_event_only aligned e failed
    simp
  · unfold EventPayload.Aligned at aligned
    split at aligned
    · simp [SimulationState.project_event,except_refuse,bind,Except.bind,aligned] at failed
      simp [← failed]
    · exact absurd trivial aligned

theorem finish_permits (command : Command) (next : Nat) (answer : Answer) :
    Steady (fun _ => ()) Permits (finish command next answer) := by
  refine .get fun t => .bind (.forM fun payload _ => .get fun u => ?_) fun _ => .get fun u => .bind (.lift ?_) fun _ =>
    .bind (.modify fun _ => rfl) fun _ => .pure _
  · split
    · rename_i e failed
      exact .throw (permits_simulation (project_event_permits _ _ _ e failed))
    · exact .bind (.modify fun _ => rfl) fun _ => .modify fun _ => rfl
  · exact .mapM fun entry _ => .bind (.orElse (by decide)) fun _ _ => .pure _

/-- A clock tick runs into anything but the lifecycle. -/
theorem tick_permits {request : SimulationCommandRequest} (tick : request.payload = .ClockTick) (next : Nat) :
    Steady (fun _ => ()) Permits (apply_simulation_validated request next) := by
  have also {α : Type} {m : Engine α} (modest : Modest m) : Steady (fun _ => ()) Permits m :=
    modest.imp (fun _ _ _ => rfl) fun _ permits => permits
  refine .bind (.get fun t => .modify fun _ => rfl) fun _ => .bind (also catch_up_modest) fun _ => .bind ?_ fun _ =>
    finish_permits _ _ _
  rw [perform_simulation,tick]
  refine .get fun t => .bind (.zoom (I := fun _ => ()) (G := (· ≠ .InvalidLifecycle)) ?_ (fun _ _ => rfl)
    fun _ other => permits_simulation other) fun _ => .bind (.modify fun _ => rfl) fun _ => .get fun u => also expire_due_modest
  rw [tick]
  exact .get fun world => .bind (.refuse (by simp)) fun _ => .pure _

/-! ### Agreement -/

/-- The transition on the run itself and the two that return a run come to the same. -/
def Agree (run : RunState) (request : SimulationCommandRequest) : Prop :=
  match (RunState.apply_simulation request).run run, run.transition_simulation_owned request,
    run.transition_simulation request with
  | .ok applied next, .ok owned, .ok outcome =>
    owned.candidate = next ∧ owned.events = applied.events ∧ owned.accepted = applied.accepted ∧
      owned.changed_listings = applied.changed_listings ∧ outcome.candidate = next ∧ outcome.events = applied.events ∧
      outcome.accepted = applied.accepted ∧ outcome.changed_listings = applied.changed_listings
  | .error e _, .error owned, .error outcome => owned.error = e.fault.error ∧ outcome.error = e.fault.error
  | _, _, _ => False

/-- A tick in good order that reaches a run which is not active. -/
def IdleTick (run : RunState) (request : SimulationCommandRequest) : Prop :=
  request.payload = .ClockTick ∧ run.simulation.lifecycle ≠ .Active ∧
    (∃ next, run.preflight request.run_id request.expected_sequence = .ok next) ∧
    run.simulation.clock.now ≤ request.logical_time

section Agreement
variable {run : RunState} {request : SimulationCommandRequest} {next : Nat}

theorem transition_simulation_eq (passes : run.preflight request.run_id request.expected_sequence = .ok next) :
    run.transition_simulation_owned request =
      match (apply_simulation_validated request next).run { run } with
      | .ok applied t => .ok (applied.into_outcome t.run)
      | .error fault _ => .error fault := by
  rw [RunState.transition_simulation_owned,passes]
  rfl

/-- An early request is refused by the simulation itself. -/
theorem early_refused (next : Nat) (early : request.logical_time < run.simulation.clock.now) :
    ∃ t, (apply_simulation_validated request next).run { run } = .error (.simulation .LogicalTimeRegression) t := by
  have quiet : ¬ (request.payload = .ClockTick ∧ request.logical_time > run.simulation.clock.now) := fun ⟨_,late⟩ => by omega
  refine ⟨{ run },?_⟩
  simp [apply_simulation_validated,announce_tick,catch_up,SimulationState.catch_up,on_simulation,run_zoom,run_refuse,emit,
    quiet,early]

/-- What `apply_simulation` does once its early checks have passed: in place or on a copy, the same transition. -/
theorem apply_simulation_eq (passes : run.preflight request.run_id request.expected_sequence = .ok next)
    (in_time : run.simulation.clock.now ≤ request.logical_time)
    (active : request.payload = .ClockTick → run.simulation.lifecycle = .Active) :
    match (apply_simulation_validated request next).run { run } with
    | .ok applied t => (RunState.apply_simulation request).run run = .ok applied t.run
    | .error fault _ => ∃ e s, (RunState.apply_simulation request).run run = .error e s ∧ e.fault = fault := by
  have late : ¬ request.logical_time < run.simulation.clock.now := by omega
  have ticks : ¬ (request.payload = .ClockTick ∧ run.simulation.lifecycle ≠ .Active) := fun both => both.2 (active both.1)
  have whole : (RunState.apply_simulation request).run run =
      (if request.payload.direct = true ∧ run.simulation.has_due_actions request.logical_time = false then
        in_place (apply_simulation_validated request next) else staged (apply_simulation_validated request next)).run run := by
    simp only [RunState.apply_simulation,EStateM.run_bind,EStateM.run_get,run_refuse,if_neg late,if_neg ticks]
    rw [show (unchanged (run.preflight request.run_id request.expected_sequence)).run run = .ok next run from
      unchanged_eq_ok.mpr ⟨passes,rfl⟩]
  rw [whole]
  exact boundary_eq (ite_eq_or_eq ..).symm

theorem apply_simulation_conflict {fault : Fault}
    (conflict : run.preflight request.run_id request.expected_sequence = .error fault) :
    (RunState.apply_simulation request).run run = .error (.Unchanged fault) run := by
  have refused : (unchanged (run.preflight request.run_id request.expected_sequence)).run run =
      .error (.Unchanged fault) run := by rw [conflict]; rfl
  simp only [RunState.apply_simulation,EStateM.run_bind,EStateM.run_get,refused]

theorem apply_simulation_early (passes : run.preflight request.run_id request.expected_sequence = .ok next)
    (early : request.logical_time < run.simulation.clock.now) :
    (RunState.apply_simulation request).run run = .error (.Unchanged (.simulation .LogicalTimeRegression)) run := by
  have passed : (unchanged (run.preflight request.run_id request.expected_sequence)).run run = .ok next run :=
    unchanged_eq_ok.mpr ⟨passes,rfl⟩
  simp only [RunState.apply_simulation,EStateM.run_bind,EStateM.run_get,passed,run_refuse,if_pos early]

theorem apply_simulation_idle (idle : IdleTick run request) :
    (RunState.apply_simulation request).run run = .error (.Unchanged (.simulation .InvalidLifecycle)) run := by
  obtain ⟨tick,inactive,⟨next,passes⟩,in_time⟩ := idle
  have passed : (unchanged (run.preflight request.run_id request.expected_sequence)).run run = .ok next run :=
    unchanged_eq_ok.mpr ⟨passes,rfl⟩
  have late : ¬ request.logical_time < run.simulation.clock.now := by omega
  have refused : request.payload = .ClockTick ∧ run.simulation.lifecycle ≠ .Active := ⟨tick,inactive⟩
  simp only [RunState.apply_simulation,EStateM.run_bind,EStateM.run_get,passed,run_refuse,if_neg late,if_pos refused]

/-- A tick that `apply_simulation` refuses for the lifecycle is not refused for it by the other two. -/
theorem IdleTick.disagree (idle : IdleTick run request) : ¬ Agree run request := by
  have refused := apply_simulation_idle idle
  obtain ⟨tick,_,⟨next,passes⟩,_⟩ := idle
  have owned := transition_simulation_eq passes
  unfold Agree
  rw [refused,RunState.transition_simulation,owned]
  cases ran : (apply_simulation_validated request next).run { run } with
  | ok applied t => exact id
  | error fault t => exact fun same => (tick_permits tick next).error ran same.1

theorem agree_of_not_idle (busy : ¬ IdleTick run request) : Agree run request := by
  unfold Agree RunState.transition_simulation
  cases passes : run.preflight request.run_id request.expected_sequence with
  | error fault =>
    have owned : run.transition_simulation_owned request = .error fault := by
      rw [RunState.transition_simulation_owned,passes]
      rfl
    rw [apply_simulation_conflict passes,owned]
    exact ⟨rfl,rfl⟩
  | ok next =>
    rw [transition_simulation_eq passes]
    by_cases early : request.logical_time < run.simulation.clock.now
    · obtain ⟨t,failed⟩ := early_refused next early
      rw [apply_simulation_early passes early,failed]
      exact ⟨rfl,rfl⟩
    · have active : request.payload = .ClockTick → run.simulation.lifecycle = .Active := fun tick => by
        by_contra inactive
        exact busy ⟨tick,inactive,⟨next,passes⟩,by omega⟩
      have same := apply_simulation_eq passes (by omega) active
      cases ran : (apply_simulation_validated request next).run { run } with
      | ok applied t =>
        rw [ran] at same
        rw [same]
        exact ⟨rfl,rfl,rfl,rfl,rfl,rfl,rfl,rfl⟩
      | error fault t =>
        rw [ran] at same
        obtain ⟨e,s,failed,rfl⟩ := same
        rw [failed]
        exact ⟨rfl,rfl⟩

/-- The entry points of a simulation request agree unless the request is a
    clock tick, in good order, that finds the run not active. -/
theorem transitions_agree_iff (run : RunState) (request : SimulationCommandRequest) :
    Agree run request ↔ ¬ IdleTick run request :=
  ⟨fun agree idle => idle.disagree agree,agree_of_not_idle⟩

end Agreement

/-- A tick of a paused run is refused in place and moves the clock of the run that is returned. -/
theorem paused_tick_disagrees : ∃ s, Reachable sample s ∧
    (RunState.apply_simulation ⟨1,2,2,5,1,1,.ClockTick⟩).run s = .error (.Unchanged (.simulation .InvalidLifecycle)) s ∧
    (∃ outcome, s.transition_simulation_owned ⟨1,2,2,5,1,1,.ClockTick⟩ = .ok outcome ∧
      outcome.candidate.simulation.clock.now = 5) ∧ ¬ Agree s ⟨1,2,2,5,1,1,.ClockTick⟩ := by
  obtain ⟨start,history,s,starts,runs,inactive,in_time,⟨next,passes,_⟩,moved⟩ := @play_reaches sample sample_codec
    [ask 0 0 1 .PauseRun] (fun _ s => s.simulation.lifecycle ≠ .Active ∧ s.simulation.clock.now ≤ 5 ∧
      (∃ next, s.preflight 1 1 = .ok next ∧ 0 < next) ∧
      ∃ outcome, s.transition_simulation_owned ⟨1,2,2,5,1,1,.ClockTick⟩ = .ok outcome ∧
        outcome.candidate.simulation.clock.now = 5) (by decide +kernel)
  have idle : IdleTick s ⟨1,2,2,5,1,1,.ClockTick⟩ := ⟨rfl,inactive,⟨next,passes⟩,in_time⟩
  exact ⟨s,⟨start,history,starts,runs⟩,apply_simulation_idle idle,moved,idle.disagree⟩

end Bunting
