import Bunting.Identity
import Bunting.Displays

/-!
A participant's cancel of its own order. Once the run has caught up to the time
of the cancel, nothing but an overflow keeps it from being committed, with one
event of its own; after it the order is not live, whether the cancel closed it
or the catching up had.
-/

namespace Bunting
open Stateful

section Cancellation
variable {s s' : RunState} {command : Bunting.Command} {request : CancelOrder} {applied : Applied} {caught : Transition}
  {key : Option ListingKey} {t : Transition}

/-- What `apply` does once its early checks have passed: in place or on a copy, the same transition. -/
theorem apply_eq {next : Nat} (passes : s.preflight command.run_id command.expected_sequence = .ok next)
    (resolves : s.resolve_listing command.payload = .ok key) (in_time : s.simulation.clock.now ≤ command.logical_time) :
    match (apply_validated command next key).run { run := s } with
    | .ok applied t => (RunState.apply command).run s = .ok applied t.run
    | .error fault _ => ∃ e s', (RunState.apply command).run s = .error e s' ∧ e.fault = fault := by
  have late : ¬ command.logical_time < s.simulation.clock.now := by omega
  have whole : (RunState.apply command).run s =
      (if s.simulation.has_due_actions command.logical_time then staged (apply_validated command next key)
        else in_place (apply_validated command next key)).run s := by
    simp only [RunState.apply,EStateM.run_bind,EStateM.run_get,run_refuse,if_neg late]
    rw [show (unchanged (s.preflight command.run_id command.expected_sequence)).run s = .ok next s from
      unchanged_eq_ok.mpr ⟨passes,rfl⟩]
    simp only
    rw [show (unchanged (s.resolve_listing command.payload)).run s = .ok key s from unchanged_eq_ok.mpr ⟨resolves,rfl⟩]
  rw [whole]
  exact boundary_eq (ite_eq_or_eq ..)

variable (cancels : command.payload = .CancelOrder request)
include cancels

/-- A cancel adds one event: that the order was canceled, or that it could not be. -/
theorem perform_cancel_ok {answer : Answer} {u : Transition}
    (ran : (perform command key).run t = .ok answer u) : u.payloads.length = t.payloads.length + 1 ∧
      ∀ owned, t.run.ownership.get? request.order_id = some owned → owned.participant_id = request.participant_id →
        ∀ after, u.run.ownership.get? request.order_id = some after → after.state ≠ .Active := by
  simp only [perform,cancels,cancel_requested,returned] at ran
  obtain ⟨outcome,v,ran,answers⟩ := ran
  split at ran
  · next missing =>
    cases ran
    simp only [answer_order,emit,returned] at answers
    obtain ⟨_,rfl⟩ := answers
    refine ⟨by simp,fun owned found => ?_⟩
    rw [missing] at found
    cases found
  · next owned found =>
    split_ifs at ran with other done
    · cases ran
      simp only [answer_order,emit,returned] at answers
      obtain ⟨_,rfl⟩ := answers
      refine ⟨by simp,fun owned' found' mine => ?_⟩
      cases found.symm.trans found'
      exact absurd mine other
    · cases ran
      simp only [answer_order,emit,returned] at answers
      obtain ⟨_,rfl⟩ := answers
      refine ⟨by simp,fun _ _ _ after found' => ?_⟩
      cases found.symm.trans found'
      exact done
    · simp only [touch,returned] at ran
      obtain ⟨w,canceled,rfl,rfl⟩ := ran
      obtain ⟨_,rfl⟩ := pure_eq_ok.mp answers
      obtain ⟨owned',_,_,_,_,_,_,_,_,_,rfl⟩ := cancel_run canceled
      refine ⟨by simp [Transition.canceled],fun _ _ _ after found' => ?_⟩
      simp only [Transition.canceled,OrdMap.get?_insert_self,Option.some.injEq] at found'
      rw [← found']
      exact fun active => (by cases active)

theorem Applies.cancel_events (applies : Applies command s applied s' caught t) :
    s'.event_sequence = s.event_sequence + caught.payloads.length + 1 := by
  obtain ⟨_,_,_,performs,_⟩ := applies.performs
  obtain ⟨market,market_by_listing,rfl⟩ := applies.commits
  have count := (perform_cancel_ok cancels performs).1
  have fixed : t.run.event_sequence = s.event_sequence :=
    congrArg (fun x : RunId × String × Nat => x.2.2) applies.fixed.2
  obtain ⟨_,_,_,committed,_⟩ := RunState.committed_eq t (s.sequence + 1) market market_by_listing
  rw [committed]
  simp only
  omega

/-- After a cancel by its owner an order is not live. -/
theorem Input.canceled (sane : Sane s) (ran : (Input.Command command).step.run s = .ok applied s') {owned : OwnedOrder}
    (found : s.ownership.get? request.order_id = some owned) (mine : owned.participant_id = request.participant_id) :
    ∀ after, s'.ownership.get? request.order_id = some after → after.state ≠ .Active := by
  obtain ⟨caught,t,applies⟩ := apply_ok ran
  obtain ⟨_,_,_,performs,_⟩ := applies.performs
  have start : Traced s.kill_switched none { run := s } { run := s } :=
    Traced.refl (t := { run := s }) fun _ _ found => sane.keyed found
  have due := (catch_up_traced _ _).ok start applies.catches
  intro after there
  obtain ⟨_,halves⟩ := applies.halves sane
  have there := halves.stepped.get? there
  cases known : caught.run.ownership.get? request.order_id with
  | none => cases found.symm.trans (due.recorded _ known)
  | some middle =>
    refine (perform_cancel_ok cancels performs).2 middle known ?_ after there
    rcases due.records _ middle known with ⟨before,first,becomes⟩ | ⟨none,_⟩
    · cases found.symm.trans first
      rw [becomes.participant_id,mine]
    · cases found.symm.trans none

theorem perform_cancel_error {F : Frame} {fault : Fault} {u : Transition} (inv : Inv F t)
    (failed : (perform command key).run t = .error fault u) :
    fault.cause = .Overflow := by
  simp only [perform,cancels,cancel_requested,returned,raised] at failed
  obtain failed | ⟨outcome,_,_,failed⟩ := failed
  · split at failed
    · cases failed
    · next owned found =>
      split_ifs at failed with other done
      · cases failed
      · cases failed
      · simp only [touch,returned,raised] at failed
        exact cancel_error (inv.touch (t.changed.insert owned.listing_key ())) found (not_not.mp done) failed
  · cases outcome with
    | ok => cases failed
    | error => simp only [answer_order,emit,raised] at failed

/-- A cancel is committed once the run catches up to its time, overflow apart. -/
theorem Input.cancel_commits (sane : Sane s) (ours : s.run_id = command.run_id ∧ s.sequence = command.expected_sequence)
    (in_time : s.simulation.clock.now ≤ command.logical_time)
    (catches : (catch_up command.logical_time false).run { run := s } = .ok () caught) :
    (∃ applied s', (Input.Command command).step.run s = .ok applied s') ∨
      ∃ e s', (Input.Command command).step.run s = .error e s' ∧ e.fault.cause = .Overflow := by
  have resolves : s.resolve_listing command.payload = .ok none := by
    rw [cancels]
    rfl
  cases fits : to_u64 (s.sequence + 1) with
  | none =>
    refine .inr ⟨.Unchanged (.overflow .SequenceOverflow),s,?_,rfl⟩
    have failed : s.preflight command.run_id command.expected_sequence = .error (.overflow .SequenceOverflow) := by
      simp only [RunState.preflight,except_bind_eq_error,except_refuse_eq_ok,except_orElse_eq_error]
      exact .inr ⟨⟨⟩,by simp [ours.1,ours.2],fits,trivial⟩
    simp only [Input.step,RunState.apply,EStateM.run_bind,EStateM.run_get,failed]
    rfl
  | some next =>
    have passes : s.preflight command.run_id command.expected_sequence = .ok next := by
      simp only [RunState.preflight,except_bind_eq_ok,except_refuse_eq_ok,except_orElse_eq_ok]
      exact ⟨⟨⟩,by simp [ours.1,ours.2],fits⟩
    have moved := apply_eq passes resolves in_time
    split at moved
    · next applied t ran => exact .inl ⟨applied,t.run,moved⟩
    · next fault t failed =>
      obtain ⟨e,s',failed',rfl⟩ := moved
      refine .inr ⟨e,s',failed',?_⟩
      -- What fails after the catching up is the cancel or the commit.
      have quiet : ∀ payload ∈ ([] : List EventPayload), payload.Quiet := by simp
      obtain ⟨F,ready⟩ := (catch_up_meets sane False.elim False.elim False.elim false quiet).ok rfl catches
      simp only [apply_validated,bind_eq_error,catches,reduceCtorEq,false_or] at failed
      obtain ⟨_,_,same,failed⟩ := failed
      cases same
      rcases failed with failed | ⟨answer,t',performs,failed⟩
      · exact perform_cancel_error cancels ready.inv failed
      · obtain ⟨⟨_,_,inv⟩,_⟩ := (perform_meets ready.caught.opened ready.inv ready.stage.now resolves).ok rfl performs
        exact (finish_meets inv.emitted.aligned).error rfl failed

end Cancellation
end Bunting
