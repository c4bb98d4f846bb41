import Bunting.Agenda
import Bunting.Negotiations
import Bunting.Holdings

/-!
Facility jobs over whole runs. Every command moves the agenda as `Agenda.Moves`
allows, and its events tell of the actions it carried out.
-/

namespace Bunting
open Stateful

/-! ### Commands -/

/-- The action an event tells of. -/
def SimulationEvent.applied_action : SimulationEvent → Option Nat
  | .ScheduledActionApplied action_id => some action_id
  | _ => none

namespace SimulationCommand

/-- The command books a facility job. -/
def starts_job : SimulationCommand → Bool
  | .ScheduleFacilityJob .. => true
  | _ => false

def books : SimulationCommand → Bool
  | .ScheduleCashflow .. | .ScheduleFacilityJob .. => true
  | _ => false

end SimulationCommand

namespace SimulationState
variable {w w' : World} {x : Unit} {events : List SimulationEvent} {context : SimulationContext} {actor : ParticipantId}
  {time : Nat} {action : ScheduledAction} {sim : SimulationState}

theorem apply_one_carries (ran : (apply_one action).run w = .ok x w') :
    Agenda.Carries [action] w.sim.agenda w'.sim.agenda ∧ w'.sim.scheduled_actions = w.sim.scheduled_actions := by
  simp only [apply_one,modify_sim,returned] at ran
  obtain ⟨u,applies,rfl⟩ := ran
  have applied (id : Nat) : (u.sim.applied_actions.insert action.action_id ()).contains id = true ↔
      u.sim.applied_actions.contains id = true ∨ ∃ other ∈ [action], other.action_id = id := by
    simp only [OrdMap.contains_iff,OrdMap.get?_insert,List.mem_singleton,exists_eq_left]
    by_cases here : id = action.action_id <;> simp [here,eq_comm]
  -- Only a completion changes the jobs.
  have other (none : action.job = none) (same : u.sim.agenda = w.sim.agenda) :
      Agenda.Carries [action] w.sim.agenda (agenda { u.sim with
        applied_actions := u.sim.applied_actions.insert action.action_id () }) ∧
      u.sim.scheduled_actions = w.sim.scheduled_actions := by
    have facilities : u.sim.facilities = w.sim.facilities := congrArg Agenda.facilities same
    have next_id : u.sim.next_action_id = w.sim.next_action_id := congrArg Agenda.next_id same
    refine ⟨⟨facilities,?_,by simp [none],next_id,fun id => ?_⟩,congrArg Agenda.pending same⟩
    · refine OrdMap.ext_get? fun id => ?_
      have jobs : u.sim.facility_jobs = w.sim.facility_jobs := congrArg Agenda.jobs same
      change u.sim.facility_jobs.get? id = _
      rw [OrdMap.get?_mapValues,jobs]
      change w.sim.facility_jobs.get? id = Option.map _ (w.sim.facility_jobs.get? id)
      cases w.sim.facility_jobs.get? id <;> simp [FacilityJob.after,none]
    · have ids : u.sim.applied_actions = w.sim.applied_actions := congrArg Agenda.applied same
      change (u.sim.applied_actions.insert action.action_id ()).contains id = true ↔ _
      rw [applied,ids]
      rfl
  unfold apply_scheduled at applies
  cases kind : action.kind with
  | Cashflow participant currency amount =>
    rw [kind] at applies
    obtain ⟨ledger,_,rfl⟩ := on_ledger_ok applies
    exact other (by rw [ScheduledAction.job,kind]) rfl
  | ExpireInstrument instrument =>
    rw [kind] at applies
    cases modify_eq_ok.mp applies
    exact other (by rw [ScheduledAction.job,kind]) rfl
  | ExerciseOption participant instrument quantity => rw [kind] at applies; exact (throw_eq_ok.mp applies).elim
  | Deliver participant instrument quantity => rw [kind] at applies; exact (throw_eq_ok.mp applies).elim
  | CompleteFacilityJob job_id =>
    rw [kind] at applies
    simp only [complete_facility_job,modify_sim,returned] at applies
    obtain ⟨job,found,facility,_,_,converts,rfl⟩ := applies
    obtain ⟨ledger,_,rfl⟩ := on_ledger_ok converts
    have completes : action.job = some job_id := by rw [ScheduledAction.job,kind]
    refine ⟨⟨rfl,OrdMap.ext_get? fun id => ?_,fun other member id there => ?_,rfl,applied⟩,rfl⟩
    · change (w.sim.facility_jobs.insert job_id { job with completed := true }).get? id =
        (w.sim.facility_jobs.mapValues _).get? id
      rw [OrdMap.get?_insert,OrdMap.get?_mapValues]
      split_ifs with here
      · subst here
        simp [found,FacilityJob.after,completes]
      · have apart : job_id ≠ id := fun same => here same.symm
        cases w.sim.facility_jobs.get? id <;> simp [FacilityJob.after,completes,apart]
    · cases List.mem_singleton.mp member
      cases completes.symm.trans there
      exact ⟨job,found⟩

theorem apply_all_carries {actions : List ScheduledAction} (ran : (forM actions apply_one).run w = .ok x w') :
    Agenda.Carries actions w.sim.agenda w'.sim.agenda ∧ w'.sim.scheduled_actions = w.sim.scheduled_actions := by
  induction actions generalizing w with
  | nil =>
    cases ran
    exact ⟨.refl _,rfl⟩
  | cons action rest ih =>
    rw [List.forM_cons,bind_eq_ok] at ran
    obtain ⟨_,u,first,later⟩ := ran
    obtain ⟨one,kept⟩ := apply_one_carries first
    obtain ⟨others,also⟩ := ih later
    exact ⟨one.trans others,also.trans kept⟩

theorem applied_actions_told (actions : List ScheduledAction) :
    (actions.map (fun action => SimulationEvent.ScheduledActionApplied action.action_id)).filterMap
      SimulationEvent.applied_action = actions.map ScheduledAction.action_id := by
  rw [List.filterMap_map]
  exact congrFun List.filterMap_eq_map actions

theorem sweep_expired_agenda (ran : (sweep_expired time).run w = .ok events w') :
    w'.sim.agenda = w.sim.agenda ∧ events.filterMap SimulationEvent.applied_action = [] := by
  simp only [sweep_expired,modify_sim,returned] at ran
  obtain ⟨rfl,rfl⟩ := ran
  refine ⟨rfl,?_⟩
  rw [List.filterMap_append,List.filterMap_map,List.filterMap_map]
  simp [Function.comp_def,SimulationEvent.applied_action]

theorem catch_up_carried {sweep : Bool} (ran : (catch_up time sweep).run w = .ok events w') :
    Agenda.Carried (w.sim.due time) w.sim.agenda w'.sim.agenda ∧
      events.filterMap SimulationEvent.applied_action = (w.sim.due time).map ScheduledAction.action_id := by
  simp only [catch_up,apply_due,modify_sim,returned] at ran
  obtain ⟨_,_,_,⟨u,applies,rfl,rfl⟩,expired,v,sweeps,rfl,rfl⟩ := ran
  obtain ⟨carries,pending⟩ := apply_all_carries applies
  have swept : v.sim.agenda = u.sim.agenda ∧ expired.filterMap SimulationEvent.applied_action = [] := by
    cases sweep with
    | true => exact sweep_expired_agenda sweeps
    | false =>
      obtain ⟨rfl,rfl⟩ := pure_eq_ok.mp sweeps
      exact ⟨rfl,rfl⟩
  refine ⟨?_,?_⟩
  · rw [swept.1]
    refine ⟨{ carries with },?_⟩
    change w.sim.scheduled_actions = w.sim.due time ++ u.sim.scheduled_actions
    rw [pending]
    exact List.takeWhile_append_dropWhile.symm
  · rw [List.filterMap_append,swept.2,List.append_nil]
    exact applied_actions_told _

/-- What a command does to the agenda, with what its events tell of it. -/
structure Acts (command : SimulationCommand) (events : List SimulationEvent) (a b : Agenda) (actions : List ScheduledAction)
    (booked : Option ScheduledAction) : Prop where
  moves : Agenda.Moves actions booked a b
  told : events.filterMap SimulationEvent.applied_action = actions.map ScheduledAction.action_id
  books : booked ≠ none → command.books = true
  starts : (∃ action ∈ booked, action.job ≠ none) → command.starts_job = true

/-- The checked sum of what the jobs hold is their sum. -/
theorem reserved_capacity_eq {facility : FacilityId} {total : Int}
    (summed : sim.reserved_capacity facility = some total) : sim.agenda.reserved facility = total := by
  have sums (jobs : List FacilityJob) (start : Int)
      (summed : jobs.foldlM (fun total job => to_i64 (total + job.input_quantity)) start = some total) :
      start + (jobs.map FacilityJob.input_quantity).sum = total := by
    induction jobs generalizing start with
    | nil => simpa using summed
    | cons job rest ih =>
      obtain ⟨next,fits,later⟩ := Option.bind_eq_some_iff.mp summed
      have := ih next later
      rw [to_i64_some fits] at this
      rw [List.map_cons,List.sum_cons,← this,add_assoc]
  have held := sums _ _ summed
  rw [zero_add] at held
  calc sim.agenda.reserved facility
      = ((sim.facility_jobs.entries.map Prod.snd).map (FacilityJob.holds facility)).sum := by rw [List.map_map]; rfl
    _ = _ := List.sum_map_ite _ _ _ _
    _ = total := by simpa [OrdMap.values] using held

theorem Bookable.booked {effective_at : Nat} {kind : ScheduledActionKind}
    (bookable : sim.Bookable effective_at) {jobs : OrdMap Nat FacilityJob}
    (same : action = ⟨sim.next_action_id,effective_at,kind⟩)
    (started : (action.job = none ∧ jobs = sim.facility_jobs) ∨ ∃ job facility, action.job = some sim.next_action_id ∧
      jobs = sim.facility_jobs.insert sim.next_action_id job ∧ job.completed = false ∧ 0 < job.input_quantity ∧
      sim.facilities.get? job.facility_id = some facility ∧
      sim.agenda.reserved job.facility_id + job.input_quantity ≤ facility.capacity) :
    Agenda.Booked action sim.agenda (agenda { sim.book effective_at kind with facility_jobs := jobs }) := by
  subst same
  exact ⟨rfl,bookable.2,(List.perm_insertionSort _ _).trans (List.perm_append_singleton _ _),rfl,rfl,rfl,started⟩

theorem Acts.quiet {command : SimulationCommand} {a : Agenda}
    (silent : events.filterMap SimulationEvent.applied_action = []) : Acts command events a a [] none :=
  ⟨⟨a,.refl a,rfl⟩,silent,by simp,by simp⟩

end SimulationState

theorem Does.acts {context : SimulationContext} {actor : ParticipantId} {time : Nat} {w w' : World}
    {command : SimulationCommand} {events : List SimulationEvent} (does : Does context actor time w command events w') :
    ∃ actions booked, SimulationState.Acts command events w.sim.agenda w'.sim.agenda actions booked := by
  cases does with
  | managed _ silent =>
    refine ⟨[],none,.quiet (List.filterMap_eq_nil_iff.mpr fun event member => ?_)⟩
    have quiet := List.all_eq_true.mp silent event member
    cases event <;> first | rfl | cases quiet
  | tender_opened | otc_opened | otc_countered | fined => exact ⟨[],none,.quiet rfl⟩
  | tender_decided _ _ _ _ decided => cases decided <;> exact ⟨[],none,.quiet rfl⟩
  | otc_decided _ _ _ _ decided => cases decided <;> exact ⟨[],none,.quiet rfl⟩
  | cashflow_scheduled bookable =>
    exact ⟨[],some _,⟨_,.refl _,bookable.booked rfl (.inl ⟨rfl,rfl⟩)⟩,rfl,fun _ => rfl,by simp [ScheduledAction.job]⟩
  | @job_scheduled id facility participant reserved input_quantity _ _ at_facility summed taken _ fits bookable =>
    refine ⟨[],some _,⟨_,.refl _,bookable.booked rfl (.inr ⟨_,facility,rfl,rfl,rfl,taken,at_facility,?_⟩)⟩,rfl,fun _ => rfl,
      fun _ => rfl⟩
    simp only
    rw [SimulationState.reserved_capacity_eq summed]
    cases total : to_i64 (reserved + input_quantity) with
    | none => simp [total] at fits
    | some sum =>
      have := to_i64_some total
      simp only [total,Option.all_some,decide_eq_true_eq,gt_iff_lt,not_lt] at fits
      omega
  | advanced catches =>
    obtain ⟨carried,told⟩ := SimulationState.catch_up_carried catches
    exact ⟨_,none,⟨_,carried,rfl⟩,told,by simp,by simp⟩

/-! ### Steps -/

def applied_actions (payloads : List EventPayload) : List Nat :=
  (payloads.filterMap EventPayload.posting).filterMap SimulationEvent.applied_action

def Input.books : Input → Bool
  | .Command _ => false
  | .Request request => request.payload.books

def Input.starts_job : Input → Bool
  | .Command _ => false
  | .Request request => request.payload.starts_job

/-- What a step does to the agenda, with what its events tell of it. -/
structure Attends (input : Input) (payloads : List EventPayload) (a b : Agenda) (actions : List ScheduledAction)
    (booked : Option ScheduledAction) : Prop where
  moves : Agenda.Moves actions booked a b
  told : applied_actions payloads = actions.map ScheduledAction.action_id
  books : booked ≠ none → input.books = true
  starts : (∃ action ∈ booked, action.job ≠ none) → input.starts_job = true

section Steps
variable {s s' : RunState} {time : Nat} {sweep : Bool} {input : Input} {applied : Applied} {caught t : Transition}
  {payloads : List EventPayload}

/-- Catching up changes the simulation as the simulation's own catching up does. -/
theorem catch_up_simulation (sane : Sane s) (quiet : ∀ payload ∈ payloads, payload.Quiet)
    (ran : (catch_up time sweep).run { run := s, payloads } = .ok () caught) :
    ∃ events w, (SimulationState.catch_up time sweep).run ⟨s.simulation,s.ledger⟩ = .ok events w ∧
      caught.run.simulation = w.sim := by
  obtain ⟨acted,crossed,acts,crosses,expires⟩ := catch_up_pieces ran
  obtain ⟨F,stage,made,_,inv,_⟩ :=
    (catch_up_actions sane (fun off : False => off.elim) (fun off => off.elim) (fun off : False => off.elim) sweep quiet).ok
      rfl acts
  have in_time : time ≤ F.now := by rw [stage.now]
  obtain ⟨steps,events,_,inv',_⟩ := (cross_boundaries_meets time _ F made.opened in_time).ok ⟨inv,le_refl _⟩ crosses
  have last := ((expire_due_meets time).ok inv' expires).1
  simp only [on_simulation,emit,returned] at acts
  obtain ⟨events,_,⟨w,catches,rfl⟩,rfl⟩ := acts
  exact ⟨events,w,catches,last.simulation.trans inv.simulation.symm⟩

theorem catch_up_attends (sane : Sane s) (quiet : ∀ payload ∈ payloads, payload.Quiet)
    (ran : (catch_up time sweep).run { run := s, payloads } = .ok () caught) :
    Agenda.Carried (s.simulation.due time) s.simulation.agenda caught.run.simulation.agenda := by
  obtain ⟨events,w,catches,same⟩ := catch_up_simulation sane quiet ran
  rw [same]
  exact (SimulationState.catch_up_carried catches).1

theorem Stepped.same_agenda (stepped : Stepped s input applied s' t) : s'.simulation.agenda = t.run.simulation.agenda := by
  obtain ⟨_,_,_,_,_,rfl⟩ := stepped.leaves
  rfl

theorem Frame.Caught.told {F : Frame} (caught : F.Caught s time) :
    F.posting.filterMap SimulationEvent.applied_action = (s.simulation.due time).map ScheduledAction.action_id := by
  rw [caught.posting]
  exact SimulationState.applied_actions_told _

theorem filterMap_posts_applied (events : List SimulationEvent) :
    (events.filter SimulationEvent.posts).filterMap SimulationEvent.applied_action =
      events.filterMap SimulationEvent.applied_action := by
  rw [List.filterMap_filter]
  refine List.filterMap_congr fun event _ => ?_
  cases event <;> rfl

theorem Input.attends (sane : Sane s) (ran : input.step.run s = .ok applied s') :
    ∃ actions booked, Attends input applied.payloads s.simulation.agenda s'.simulation.agenda actions booked := by
  obtain ⟨F,caught,t,halves⟩ := Input.halves sane ran
  have ready := halves.ready
  have carried := catch_up_attends sane (input.opens_quiet s) halves.catches
  have same := halves.stepped.same_agenda
  rw [Applied.payloads,halves.payloads]
  cases halves.goes with
  | kept _ kept =>
    obtain ⟨_,_,inv⟩ := kept
    refine ⟨_,none,⟨_,carried,?_⟩,?_,by simp,by simp⟩
    · rw [same,inv.simulation,ready.inv.simulation]
      rfl
    · rw [applied_actions,inv.emitted.posting]
      exact ready.caught.told
  | @ran request _ _ _ _ runs _ inv _ =>
    obtain ⟨actions,booked,acts⟩ := (SimulationState.apply_does runs).acts
    obtain ⟨mid,first,next⟩ := acts.moves
    rw [inv.simulation] at same
    refine ⟨s.simulation.due request.logical_time ++ actions,booked,⟨mid,carried.trans first,?_⟩,?_,acts.books,acts.starts⟩
    · rw [same]
      exact next
    · rw [applied_actions,inv.emitted.posting]
      simp only [Frame.after,List.filterMap_append,filterMap_posts_applied]
      rw [ready.caught.told,acts.told,List.map_append]
      rfl

end Steps

/-! ### Runs -/

/-- One step of a run: the state before it, what it returned and the state after it. -/
structure Passage where
  before : RunState
  applied : Applied
  after : RunState

namespace Passage

def conversions (passage : Passage) : List Nat :=
  (applied_actions passage.applied.payloads).filterMap (fun id =>
    (passage.before.simulation.action id).bind ScheduledAction.job)

def scheduled (passage : Passage) : List Nat :=
  (passage.after.simulation.scheduled_actions.filter (fun action =>
    action ∉ passage.before.simulation.scheduled_actions)).map ScheduledAction.action_id

end Passage

/-- Steps that returned, each of which met a condition on the state before it and its input. -/
inductive PassesWhere (allowed : RunState → Input → Prop) (start : RunState) : List Passage → RunState → Prop
  | nil : PassesWhere allowed start [] start
  | step {passages s s' input applied} (before : PassesWhere allowed start passages s) (meets : allowed s input)
      (ran : input.step.run s = .ok applied s') : PassesWhere allowed start (passages ++ [⟨s,applied,s'⟩]) s'

/-- The counter still goes on where the input books an action, and no pending action completes the job that the input
    starts. -/
def Orderly (s : RunState) (input : Input) : Prop :=
  (input.books = true → s.simulation.next_action_id < last_id) ∧
  (input.starts_job = true → ∀ action ∈ s.simulation.scheduled_actions, action.job ≠ some s.simulation.next_action_id)

instance (s : RunState) (input : Input) : Decidable (Orderly s input) := inferInstanceAs (Decidable (_ ∧ _))

section Runs
variable {scenario : ScenarioDefinition} {start s s' : RunState} {input : Input} {applied : Applied} {passages : List Passage}
  {allowed : RunState → Input → Prop} {actions : List ScheduledAction} {booked : Option ScheduledAction}

theorem PassesWhere.sane (passes : PassesWhere allowed start passages s) (sane : Sane start) : Sane s := by
  induction passes with
  | nil => exact sane
  | step _ _ ran ih =>
    obtain ⟨_,stepped⟩ := Input.stepped ih ran
    exact stepped.sane

/-- The conversions of a step are the completions among the actions it carries out. -/
theorem Attends.conversions (sane : Sane s) (attends : Attends input applied.payloads s.simulation.agenda
    s'.simulation.agenda actions booked) :
    (⟨s,applied,s'⟩ : Passage).conversions = actions.filterMap ScheduledAction.job := by
  obtain ⟨mid,carried,_⟩ := attends.moves
  rw [Passage.conversions,attends.told,List.filterMap_map]
  refine List.filterMap_congr fun action member => ?_
  have pending : action ∈ s.simulation.scheduled_actions := by
    have split : s.simulation.scheduled_actions = actions ++ mid.pending := carried.pending
    rw [split]
    exact List.mem_append_left _ member
  rw [Function.comp_apply,sane.sound.action pending]
  rfl

/-- The ids a step schedules are those of the action it books. -/
theorem Attends.scheduled (sound : s.simulation.agenda.Sound) (attends : Attends input applied.payloads
    s.simulation.agenda s'.simulation.agenda actions booked)
    (small : booked ≠ none → s.simulation.next_action_id < last_id) :
    (⟨s,applied,s'⟩ : Passage).scheduled = booked.toList.map ScheduledAction.action_id := by
  obtain ⟨mid,carried,next⟩ := attends.moves
  have split : s.simulation.scheduled_actions = actions ++ mid.pending := carried.pending
  have old : mid.pending.filter (fun action => action ∉ s.simulation.scheduled_actions) = [] := by
    refine List.filter_eq_nil_iff.mpr fun action member => ?_
    rw [split]
    simp [member]
  unfold Passage.scheduled
  congr 1
  cases booked with
  | none =>
    have same : s'.simulation.scheduled_actions = mid.pending := congrArg Agenda.pending next
    rw [same]
    exact old
  | some action =>
    have booked : Agenda.Booked action mid s'.simulation.agenda := next
    have fresh : action ∉ s.simulation.scheduled_actions := fun there => by
      have given := sound.given action there
      have below := small (by simp)
      rw [booked.named,carried.next_id] at given
      rcases given with given | given
      · exact lt_irrefl _ given
      · exact absurd below (not_lt.mpr given)
    have sorted := booked.pending.filter (fun action => action ∉ s.simulation.scheduled_actions)
    rw [List.filter_cons_of_pos (by simpa using fresh),old] at sorted
    exact List.perm_singleton.mp sorted

theorem le_first_id {action : ScheduledAction} (member : action ∈ actions) (first : Nat) :
    saturating_succ action.action_id ≤
      actions.foldl (fun next action => max next (saturating_succ action.action_id)) first := by
  have grows (rest : List ScheduledAction) (first : Nat) :
      first ≤ rest.foldl (fun next action => max next (saturating_succ action.action_id)) first := by
    induction rest generalizing first with
    | nil => exact le_refl _
    | cons other rest ih => exact (le_max_left _ _).trans (ih _)
  induction actions generalizing first with
  | nil => cases member
  | cons other rest ih =>
    rcases List.mem_cons.mp member with rfl | later
    · exact (le_max_right _ _).trans (grows rest _)
    · exact ih later _

theorem Opened.agenda (opened : Opened scenario start) : start.simulation.agenda.Logged []
    (start.simulation.scheduled_actions.map ScheduledAction.action_id) := by
  have distinct := opened.sound.distinct
  have starts := opened.simulation
  simp only [SimulationState.from_scenario,SimulationScenario.validate,returned,not_not] at starts
  obtain ⟨⟨_,valid,_⟩,_,same⟩ := starts
  have begun : ∀ action ∈ start.simulation.scheduled_actions, start.simulation.agenda.Given action.action_id := by
    intro action member
    rw [← same] at member ⊢
    have past := le_first_id ((List.perm_insertionSort _ _).mem_iff.mp member) 1
    change action.action_id < List.foldl _ _ _ ∨ last_id ≤ List.foldl _ _ _
    generalize List.foldl _ _ _ = first at past ⊢
    unfold saturating_succ at past
    unfold last_id
    omega
  have jobs : start.simulation.facility_jobs = ∅ := by rw [← same]
  have applied : start.simulation.applied_actions = ∅ := by rw [← same]
  refine ⟨⟨distinct,begun,fun id spent => ?_,fun {id job} found => ?_,fun {id job} found => ?_,fun {id job} found => ?_,
    fun {id facility} found => ?_⟩,List.nodup_nil,by simp,distinct,fun id member => ?_⟩
  · change start.simulation.applied_actions.contains id = true at spent
    rw [applied] at spent
    cases spent
  · exact absurd found (by simp [SimulationState.agenda,jobs])
  · exact absurd found (by simp [SimulationState.agenda,jobs])
  · exact absurd found (by simp [SimulationState.agenda,jobs])
  · have none : start.simulation.agenda.reserved id = 0 := by simp [Agenda.reserved,SimulationState.agenda,jobs]
    rw [none]
    have listed : scenario.simulation.facilities.get? id = some facility := by rw [← same] at found; exact found
    have checked := List.all_eq_true.mp valid (id,facility) (OrdMap.mem_of_get? listed)
    simp only [SimulationScenario.valid_facility,decide_eq_true_eq] at checked
    exact checked.2.2.1.le
  · obtain ⟨action,there,rfl⟩ := List.mem_map.mp member
    exact begun action there

/-- What the steps of a run have converted and scheduled, with the agenda of the state they reach. -/
theorem PassesWhere.logged (starts : Starts scenario start) (passes : PassesWhere Orderly start passages s) :
    s.simulation.agenda.Logged (passages.flatMap Passage.conversions)
      (start.simulation.scheduled_actions.map ScheduledAction.action_id ++ passages.flatMap Passage.scheduled) := by
  induction passes with
  | nil =>
    rw [List.flatMap_nil,List.flatMap_nil,List.append_nil]
    exact starts.opened.agenda
  | @step passages s s' input applied before meets ran ih =>
    have sane := before.sane starts.opened.sane
    obtain ⟨actions,booked,attends⟩ := Input.attends sane ran
    have small : booked ≠ none → s.simulation.next_action_id < last_id := fun some => meets.1 (attends.books some)
    rw [List.flatMap_append,List.flatMap_append,List.flatMap_singleton,List.flatMap_singleton,
      attends.conversions sane,attends.scheduled ih.sound small,← List.append_assoc]
    exact ih.moves attends.moves small fun job => meets.2 (attends.starts job)

/-- In every run in which the counter of ids goes on and no pending action completes a job that is yet to start: the
    uncompleted jobs of a facility fit its capacity, each has one pending action that completes it, no job is converted twice,
    and no id is scheduled twice. -/
theorem facility_jobs_are_converted_once (starts : Starts scenario start) (passes : PassesWhere Orderly start passages s) :
    (∀ id facility, s.simulation.facilities.get? id = some facility →
      s.simulation.agenda.reserved id ≤ facility.capacity) ∧
    (∀ id job, s.simulation.facility_jobs.get? id = some job → job.completed = false →
      ∃ action, s.simulation.agenda.completions id = [action]) ∧
    (passages.flatMap Passage.conversions).Nodup ∧
    (s.simulation.scheduled_actions.map ScheduledAction.action_id).Nodup ∧
    (start.simulation.scheduled_actions.map ScheduledAction.action_id ++ passages.flatMap Passage.scheduled).Nodup := by
  have logged := passes.logged starts
  exact ⟨fun id facility found => logged.sound.capacity found,
    fun id job found uncompleted => logged.sound.one_completion found uncompleted,logged.once,logged.sound.distinct,
    logged.unique⟩

/-- A run of inputs each of which met a condition, with what holds of it. -/
theorem play_passes (codec : Codec) (inputs : List Input) (P : List Passage → RunState → Prop)
    (plays : ∃ start, RunState.from_scenario codec 1 1 scenario = .ok start ∧
      Plays (fun s _ applied s' => ⟨s,applied,s'⟩) allowed P [] start inputs) :
    ∃ start passages s, Starts scenario start ∧ PassesWhere allowed start passages s ∧ P passages s := by
  obtain ⟨start,made,plays⟩ := plays
  obtain ⟨passages,s,passes,holds⟩ := plays.leads .nil fun _ _ _ _ _ before meets ran => PassesWhere.step before meets ran
  exact ⟨start,passages,s,⟨codec,1,1,made⟩,passes,holds⟩

/-- Two jobs of one facility, of which the first is converted. -/
theorem facility_jobs_are_converted_once_of_two : ∃ start passages s, Starts sample_works start ∧
    PassesWhere Orderly start passages s ∧ passages.flatMap Passage.conversions = [1] ∧
    (∃ action, s.simulation.agenda.completions 2 = [action]) ∧ s.simulation.agenda.reserved 1 ≤ 100 := by
  obtain ⟨start,passages,s,starts,passes,converted,known,waiting⟩ := @play_passes sample_works Orderly sample_codec
    [ask 0 0 1 (.ScheduleFacilityJob 1 2 60 3 5),ask 1 0 1 (.ScheduleFacilityJob 1 2 40 3 9),ask 2 5 1 .ClockTick]
    (fun passages s => passages.flatMap Passage.conversions = [1] ∧
      s.simulation.facilities.get? 1 = some ⟨1,100,none,some 1⟩ ∧
      s.simulation.facility_jobs.get? 2 = some ⟨2,1,2,40,3,9,false⟩) (by decide +kernel)
  obtain ⟨capacity,pending,_⟩ := facility_jobs_are_converted_once starts passes
  exact ⟨start,passages,s,starts,passes,converted,pending 2 _ waiting rfl,capacity 1 _ known⟩

/-- A scenario that names the job of an id it leaves to the counter. -/
def sample_twice : ScenarioDefinition :=
  { sample_works with simulation := { sample_works.simulation with
      scheduled_actions := [⟨1,10,.CompleteFacilityJob 2⟩] } }

/-- The job that gets the id is pending twice, and converted twice. -/
theorem facility_job_converted_twice : ∃ start passages s, Starts sample_twice start ∧
    PassesWhere (fun _ _ => True) start passages s ∧
    (∃ passage ∈ passages, ∃ job, passage.after.simulation.facility_jobs.get? 2 = some job ∧ job.completed = false ∧
      (passage.after.simulation.agenda.completions 2).length = 2) ∧
    passages.flatMap Passage.conversions = [2,2] := by
  exact play_passes sample_codec
    [ask 0 0 1 (.ScheduleFacilityJob 1 2 60 3 20),ask 1 10 1 .ClockTick,ask 2 20 1 .ClockTick]
    (fun passages _ => (∃ passage ∈ passages, ∃ job, passage.after.simulation.facility_jobs.get? 2 = some job ∧
      job.completed = false ∧ (passage.after.simulation.agenda.completions 2).length = 2) ∧
      passages.flatMap Passage.conversions = [2,2]) (by decide +kernel)

end Runs

end Bunting
