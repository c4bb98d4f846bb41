import Bunting.SimulationEffects

/-!
The agenda of a run: pending actions and facility jobs. A job and the action
that completes it are entered under one id, in two collections that are updated
at different times. A step carries out the first of the pending actions and may
then book one more.
-/

namespace Bunting

/-- The greatest id there is. The counter stays there. -/
def last_id : Nat := 340282366920938463463374607431768211455

theorem lt_saturating_succ {n : Nat} (small : n < last_id) : n < saturating_succ n := by
  unfold saturating_succ last_id at *
  omega

/-- The job that an action completes. -/
def ScheduledAction.job (action : ScheduledAction) : Option Nat :=
  match action.kind with
  | .CompleteFacilityJob job_id => some job_id
  | _ => none

/-- Pending actions and facility jobs, with the counter that names them. -/
structure Agenda where
  facilities : OrdMap FacilityId FacilityDefinition
  pending : List ScheduledAction
  jobs : OrdMap Nat FacilityJob
  next_id : Nat
  applied : OrdSet Nat

def SimulationState.agenda (sim : SimulationState) : Agenda :=
  ⟨sim.facilities,sim.scheduled_actions,sim.facility_jobs,sim.next_action_id,sim.applied_actions⟩

/-- What a job holds of the capacity of a facility. -/
def FacilityJob.holds (facility : FacilityId) (job : FacilityJob) : Int :=
  if job.facility_id = facility ∧ job.completed = false then job.input_quantity else 0

/-- The capacity of a facility that its uncompleted jobs hold. -/
def Agenda.reserved (agenda : Agenda) (facility : FacilityId) : Int := agenda.jobs.sum (fun _ job => job.holds facility)

/-- The pending actions that complete a job. -/
def Agenda.completions (agenda : Agenda) (id : Nat) : List ScheduledAction :=
  agenda.pending.filter (fun action => action.job = some id)

/-- A job after actions. -/
def FacilityJob.after (actions : List ScheduledAction) (id : Nat) (job : FacilityJob) : FacilityJob :=
  { job with completed := job.completed || actions.any (fun action => action.job = some id) }

namespace Agenda

/-- What actions do to the jobs and to the ids. -/
structure Carries (actions : List ScheduledAction) (a b : Agenda) : Prop where
  facilities : b.facilities = a.facilities
  jobs : b.jobs = a.jobs.mapValues (FacilityJob.after actions)
  real : ∀ action ∈ actions, ∀ id ∈ action.job, ∃ job, a.jobs.get? id = some job
  next_id : b.next_id = a.next_id
  applied : ∀ id, b.applied.contains id = true ↔ a.applied.contains id = true ∨ ∃ action ∈ actions, action.action_id = id

/-- The first of the pending actions are carried out. -/
structure Carried (actions : List ScheduledAction) (a b : Agenda) : Prop extends Carries actions a b where
  pending : a.pending = actions ++ b.pending

/-- One action is booked under the next id, for a job or without one. -/
structure Booked (action : ScheduledAction) (a b : Agenda) : Prop where
  named : action.action_id = a.next_id
  fresh : ∀ other ∈ a.pending, other.action_id ≠ a.next_id
  pending : b.pending.Perm (action :: a.pending)
  next_id : b.next_id = saturating_succ a.next_id
  facilities : b.facilities = a.facilities
  applied : b.applied = a.applied
  jobs : (action.job = none ∧ b.jobs = a.jobs) ∨ ∃ job facility, action.job = some a.next_id ∧
    b.jobs = a.jobs.insert a.next_id job ∧ job.completed = false ∧ 0 < job.input_quantity ∧
    a.facilities.get? job.facility_id = some facility ∧ a.reserved job.facility_id + job.input_quantity ≤ facility.capacity

/-- What one step does: some pending actions are carried out, then one may be booked. -/
def Moves (actions : List ScheduledAction) (booked : Option ScheduledAction) (a b : Agenda) : Prop :=
  ∃ mid, Carried actions a mid ∧ booked.elim (b = mid) (fun action => Booked action mid b)

section Carrying
variable {actions more : List ScheduledAction} {a b c : Agenda}

theorem Carries.refl (a : Agenda) : Carries [] a a where
  facilities := rfl
  jobs := OrdMap.ext_get? fun id => by rw [OrdMap.get?_mapValues]; cases a.jobs.get? id <;> simp [FacilityJob.after]
  real := by simp
  next_id := rfl
  applied := by simp

theorem Carries.get? (carries : Carries actions a b) (id : Nat) :
    b.jobs.get? id = (a.jobs.get? id).map (FacilityJob.after actions id) := by
  rw [carries.jobs,OrdMap.get?_mapValues]

theorem Carries.trans (first : Carries actions a b) (next : Carries more b c) : Carries (actions ++ more) a c where
  facilities := next.facilities.trans first.facilities
  jobs := OrdMap.ext_get? fun id => by
    rw [next.get?,first.get?,OrdMap.get?_mapValues]
    cases a.jobs.get? id <;> simp [FacilityJob.after,List.any_append,Bool.or_assoc]
  real := fun action member id job => by
    rcases List.mem_append.mp member with member | member
    · exact first.real action member id job
    · obtain ⟨found,there⟩ := next.real action member id job
      rw [first.get?] at there
      obtain ⟨before,here,_⟩ := Option.map_eq_some_iff.mp there
      exact ⟨before,here⟩
  next_id := next.next_id.trans first.next_id
  applied := fun id => by
    rw [next.applied,first.applied]
    simp only [List.mem_append,or_and_right,exists_or,or_assoc]

theorem Carried.refl (a : Agenda) : Carried [] a a := ⟨.refl a,rfl⟩

theorem Carried.trans (first : Carried actions a b) (next : Carried more b c) : Carried (actions ++ more) a c :=
  ⟨first.toCarries.trans next.toCarries,by rw [first.pending,next.pending,List.append_assoc]⟩

end Carrying

/-! ### What the two moves keep -/

/-- An id has been given out, or the counter is at its end. -/
def Given (agenda : Agenda) (id : Nat) : Prop := id < agenda.next_id ∨ last_id ≤ agenda.next_id

structure Sound (agenda : Agenda) : Prop where
  distinct : (agenda.pending.map ScheduledAction.action_id).Nodup
  given : ∀ action ∈ agenda.pending, agenda.Given action.action_id
  spent : ∀ id, agenda.applied.contains id = true → agenda.Given id ∧ ∀ action ∈ agenda.pending, action.action_id ≠ id
  begun : ∀ {id job}, agenda.jobs.get? id = some job → agenda.Given id ∧ 0 < job.input_quantity
  own : ∀ {id job}, agenda.jobs.get? id = some job → ∀ action ∈ agenda.pending, action.job = some id →
    action.action_id = id ∧ job.completed = false
  awaited : ∀ {id job}, agenda.jobs.get? id = some job → job.completed = false →
    ∃ action ∈ agenda.pending, action.job = some id
  capacity : ∀ {id facility}, agenda.facilities.get? id = some facility → agenda.reserved id ≤ facility.capacity

section Keeping
variable {actions : List ScheduledAction} {action : ScheduledAction} {a b : Agenda} {id : Nat} {job : FacilityJob}

theorem Sound.one_completion (sound : a.Sound) (found : a.jobs.get? id = some job)
    (uncompleted : job.completed = false) : ∃ action, a.completions id = [action] := by
  obtain ⟨action,member,completes⟩ := sound.awaited found uncompleted
  have distinct : (a.completions id).Nodup := sound.distinct.of_map.filter _
  refine ⟨action,List.perm_singleton.mp ((List.perm_ext_iff_of_nodup distinct (List.nodup_singleton _)).mpr fun other => ?_)⟩
  rw [completions,List.mem_filter,List.mem_singleton,decide_eq_true_eq]
  constructor
  · rintro ⟨there,also⟩
    exact List.inj_on_of_nodup_map sound.distinct there member
      ((sound.own found other there also).1.trans (sound.own found action member completes).1.symm)
  · rintro rfl
    exact ⟨member,completes⟩

theorem Carries.given (carries : Carries actions a b) (given : a.Given id) : b.Given id := by
  unfold Given
  rw [carries.next_id]
  exact given

/-- Jobs hold no more of a facility once actions are carried out. -/
theorem Carries.reserved_le (carries : Carries actions a b) (positive : ∀ {id job}, a.jobs.get? id = some job →
    0 < job.input_quantity) (facility : FacilityId) : b.reserved facility ≤ a.reserved facility := by
  unfold reserved
  rw [carries.jobs,OrdMap.sum_mapValues]
  refine OrdMap.sum_le_sum fun id job found => ?_
  have := positive found
  unfold FacilityJob.holds FacilityJob.after
  split_ifs with left right
  · exact le_refl _
  · simp only [Bool.or_eq_false_iff] at left
    exact absurd ⟨left.1,left.2.1⟩ right
  · exact this.le
  · exact le_refl _

theorem Sound.carried (sound : a.Sound) (carried : Carried actions a b) : b.Sound := by
  have subset : ∀ action ∈ b.pending, action ∈ a.pending := fun action member => by
    rw [carried.pending]
    exact List.mem_append_right _ member
  have distinct := sound.distinct
  rw [carried.pending,List.map_append] at distinct
  have apart : ∀ x ∈ actions, ∀ y ∈ b.pending, x.action_id ≠ y.action_id := fun x here y there =>
    (List.nodup_append.mp distinct).2.2 _ (List.mem_map_of_mem here) _ (List.mem_map_of_mem there)
  have earlier {id : Nat} {job : FacilityJob} (found : b.jobs.get? id = some job) :
      ∃ before, a.jobs.get? id = some before ∧ before.after actions id = job := by
    rw [carried.get?] at found
    exact Option.map_eq_some_iff.mp found
  refine ⟨(List.nodup_append.mp distinct).2.1,fun action member => carried.given (sound.given action (subset action member)),
    fun id spent => ?_,fun {id job} found => ?_,fun {id job} found action member completes => ?_,
    fun {id job} found uncompleted => ?_,fun {id facility} found => ?_⟩
  · rcases (carried.applied id).mp spent with spent | ⟨action,member,rfl⟩
    · obtain ⟨given,apart⟩ := sound.spent id spent
      exact ⟨carried.given given,fun action member => apart action (subset action member)⟩
    · refine ⟨carried.given (sound.given action ?_),fun other there => (apart action member other there).symm⟩
      rw [carried.pending]
      exact List.mem_append_left _ member
  · obtain ⟨before,there,rfl⟩ := earlier found
    exact ⟨carried.given (sound.begun there).1,(sound.begun there).2⟩
  · obtain ⟨before,there,rfl⟩ := earlier found
    obtain ⟨named,uncompleted⟩ := sound.own there action (subset action member) completes
    refine ⟨named,?_⟩
    -- An action carried out for the job would have the same id.
    rw [FacilityJob.after,uncompleted,Bool.false_or,List.any_eq_false]
    intro other inside also
    have same := (sound.own there other (by rw [carried.pending]; exact List.mem_append_left _ inside)
      (of_decide_eq_true also)).1
    exact apart other inside action member (same.trans named.symm)
  · obtain ⟨before,there,rfl⟩ := earlier found
    rw [FacilityJob.after,Bool.or_eq_false_iff,List.any_eq_false] at uncompleted
    obtain ⟨action,member,completes⟩ := sound.awaited there uncompleted.1
    refine ⟨action,?_,completes⟩
    rw [carried.pending] at member
    rcases List.mem_append.mp member with inside | later
    · exact absurd (decide_eq_true completes) (uncompleted.2 action inside)
    · exact later
  · rw [carried.facilities] at found
    exact (carried.reserved_le (fun there => (sound.begun there).2) id).trans (sound.capacity found)

theorem Booked.given (booked : Booked action a b) (small : a.next_id < last_id) (given : a.Given id) :
    id < b.next_id := by
  have grows := lt_saturating_succ small
  rw [booked.next_id]
  unfold Given at given
  omega

theorem Booked.reserved (booked : Booked action a b) (unused : a.jobs.get? a.next_id = none) {id : FacilityId}
    {facility : FacilityDefinition} (sound : a.Sound) (found : a.facilities.get? id = some facility) :
    b.reserved id ≤ facility.capacity := by
  rcases booked.jobs with ⟨_,same⟩ | ⟨job,there,_,inserted,uncompleted,_,at_facility,fits⟩
  · rw [Agenda.reserved,same]
    exact sound.capacity found
  · rw [Agenda.reserved,inserted,OrdMap.sum_insert_new _ _ unused]
    change a.reserved id + job.holds id ≤ facility.capacity
    by_cases here : job.facility_id = id
    · subst here
      cases at_facility.symm.trans found
      rw [FacilityJob.holds,if_pos ⟨rfl,uncompleted⟩]
      exact fits
    · rw [FacilityJob.holds,if_neg fun both => here both.1,add_zero]
      exact sound.capacity found

/-- Booking keeps the agenda sound where the counter goes on and no pending action completes the new job already. -/
theorem Sound.booked (sound : a.Sound) (booked : Booked action a b) (small : a.next_id < last_id)
    (clear : action.job ≠ none → ∀ other ∈ a.pending, other.job ≠ some a.next_id) : b.Sound := by
  have unused : a.jobs.get? a.next_id = none := by
    cases found : a.jobs.get? a.next_id with
    | none => rfl
    | some job =>
      have given := (sound.begun found).1
      unfold Given at given
      omega
  have members (other : ScheduledAction) : other ∈ b.pending ↔ other = action ∨ other ∈ a.pending := by
    rw [booked.pending.mem_iff,List.mem_cons]
  have next : action.action_id < b.next_id := by
    rw [booked.named,booked.next_id]
    exact lt_saturating_succ small
  have looked {id : Nat} {job : FacilityJob} (found : b.jobs.get? id = some job) :
      a.jobs.get? id = some job ∧ id ≠ a.next_id ∨
        id = a.next_id ∧ job.completed = false ∧ 0 < job.input_quantity ∧ action.job = some id := by
    rcases booked.jobs with ⟨_,same⟩ | ⟨new,_,completes,inserted,uncompleted,positive,_⟩
    · rw [same] at found
      refine .inl ⟨found,?_⟩
      rintro rfl
      cases unused.symm.trans found
    · rw [inserted,OrdMap.get?_insert] at found
      split_ifs at found with here
      · cases found
        exact .inr ⟨here,uncompleted,positive,here ▸ completes⟩
      · exact .inl ⟨found,here⟩
  have completes_next {id : Nat} (completes : action.job = some id) : id = a.next_id := by
    rcases booked.jobs with ⟨none,_⟩ | ⟨_,_,same,_⟩
    · rw [none] at completes
      cases completes
    · exact Option.some_inj.mp (completes.symm.trans same)
  refine ⟨?_,fun other member => .inl ?_,fun id spent => ?_,fun {id job} found => ?_,
    fun {id job} found other member completes => ?_,fun {id job} found uncompleted => ?_,fun {id facility} found => ?_⟩
  · refine (booked.pending.map ScheduledAction.action_id).nodup_iff.mpr (List.nodup_cons.mpr ⟨fun repeated => ?_,sound.distinct⟩)
    obtain ⟨other,member,same⟩ := List.mem_map.mp repeated
    exact booked.fresh other member (same.trans booked.named)
  · rcases (members other).mp member with rfl | member
    · exact next
    · exact booked.given small (sound.given other member)
  · rw [booked.applied] at spent
    obtain ⟨given,apart⟩ := sound.spent id spent
    refine ⟨.inl (booked.given small given),fun other member => ?_⟩
    rcases (members other).mp member with rfl | member
    · rw [booked.named]
      rintro rfl
      unfold Given at given
      omega
    · exact apart other member
  · rcases looked found with ⟨there,_⟩ | ⟨rfl,_,positive,_⟩
    · exact ⟨.inl (booked.given small (sound.begun there).1),(sound.begun there).2⟩
    · exact ⟨.inl (booked.named ▸ next),positive⟩
  · rcases (members other).mp member with rfl | member
    · rcases looked found with ⟨_,other⟩ | ⟨rfl,uncompleted,_⟩
      · exact absurd (completes_next completes) other
      · exact ⟨booked.named,uncompleted⟩
    · rcases looked found with ⟨there,_⟩ | ⟨rfl,_,_,here⟩
      · exact sound.own there other member completes
      · exact absurd completes (clear (by simp [here]) other member)
  · rcases looked found with ⟨there,_⟩ | ⟨_,_,_,here⟩
    · obtain ⟨other,member,completes⟩ := sound.awaited there uncompleted
      exact ⟨other,(members other).mpr (.inr member),completes⟩
    · exact ⟨action,(members action).mpr (.inl rfl),here⟩
  · rw [booked.facilities] at found
    exact booked.reserved unused sound found

variable {booked : Option ScheduledAction}

/-- A step keeps the agenda sound where what it books meets the condition in the agenda it starts from. -/
theorem Sound.moves (sound : a.Sound) (moves : Moves actions booked a b) (small : booked ≠ none → a.next_id < last_id)
    (clear : (∃ action ∈ booked, action.job ≠ none) → ∀ other ∈ a.pending, other.job ≠ some a.next_id) : b.Sound := by
  obtain ⟨mid,carried,next⟩ := moves
  have middle := sound.carried carried
  cases booked with
  | none =>
    cases (next : b = mid)
    exact middle
  | some action =>
    refine middle.booked next (by rw [carried.next_id]; exact small (by simp)) fun job other member => ?_
    rw [carried.next_id]
    refine clear ⟨action,rfl,job⟩ other ?_
    rw [carried.pending]
    exact List.mem_append_right _ member

/-- What was converted and what was booked so far, with the agenda that is left. -/
structure Logged (agenda : Agenda) (conversions ids : List Nat) : Prop where
  sound : agenda.Sound
  once : conversions.Nodup
  converted : ∀ id ∈ conversions, ∃ job, agenda.jobs.get? id = some job ∧ job.completed = true
  unique : ids.Nodup
  given : ∀ id ∈ ids, agenda.Given id

/-- The completions carried out are of uncompleted jobs, each under the id of its job. -/
theorem Sound.completing (sound : a.Sound) (carried : Carried actions a b) :
    (actions.filterMap ScheduledAction.job).Nodup ∧ ∀ id ∈ actions.filterMap ScheduledAction.job,
      ∃ job, a.jobs.get? id = some job ∧ job.completed = false := by
  have own (action : ScheduledAction) (member : action ∈ actions) {id : Nat} (completes : action.job = some id) :
      ∃ job, a.jobs.get? id = some job ∧ action.action_id = id ∧ job.completed = false := by
    obtain ⟨job,found⟩ := carried.real action member id completes
    exact ⟨job,found,sound.own found action (by rw [carried.pending]; exact List.mem_append_left _ member) completes⟩
  refine ⟨?_,fun id member => ?_⟩
  · have distinct := sound.distinct
    rw [carried.pending,List.map_append] at distinct
    refine List.pairwise_filterMap.mpr ((List.pairwise_map.mp (List.nodup_append.mp distinct).1).imp_of_mem
      fun {x y} left right apart id here id' there same => apart ?_)
    obtain ⟨_,_,first,_⟩ := own x left here
    obtain ⟨_,_,second,_⟩ := own y right there
    rw [first,second,same]
  · obtain ⟨action,inside,completes⟩ := List.mem_filterMap.mp member
    obtain ⟨job,found,_,uncompleted⟩ := own action inside completes
    exact ⟨job,found,uncompleted⟩

theorem Moves.completed (moves : Moves actions booked a b) (sound : a.Sound)
    (small : booked ≠ none → a.next_id < last_id) (found : a.jobs.get? id = some job) :
    ∃ job', b.jobs.get? id = some job' ∧
      ((job.completed = true ∨ id ∈ actions.filterMap ScheduledAction.job) → job'.completed = true) := by
  obtain ⟨mid,carried,next⟩ := moves
  have middle : mid.jobs.get? id = some (job.after actions id) := by rw [carried.get?,found]; rfl
  have done : (job.completed = true ∨ id ∈ actions.filterMap ScheduledAction.job) → (job.after actions id).completed = true := by
    simp only [FacilityJob.after,Bool.or_eq_true,List.any_eq_true,decide_eq_true_eq,List.mem_filterMap]
    exact fun either => either
  cases booked with
  | none =>
    cases (next : b = mid)
    exact ⟨_,middle,done⟩
  | some action =>
    have booked : Booked action mid b := next
    rcases booked.jobs with ⟨_,same⟩ | ⟨new,_,_,inserted,_⟩
    · exact ⟨_,by rw [same]; exact middle,done⟩
    · have other : id ≠ mid.next_id := by
        have given := (sound.begun found).1
        have below := small (by simp)
        rw [carried.next_id]
        unfold Given at given
        omega
      exact ⟨_,by rw [inserted,OrdMap.get?_insert_of_ne other]; exact middle,done⟩

theorem Moves.given (moves : Moves actions booked a b) (small : booked ≠ none → a.next_id < last_id) :
    (∀ id, a.Given id → b.Given id) ∧ ∀ action ∈ booked, action.action_id = a.next_id ∧ b.Given action.action_id := by
  obtain ⟨mid,carried,next⟩ := moves
  cases booked with
  | none =>
    cases (next : b = mid)
    exact ⟨fun id => carried.given,by simp⟩
  | some action =>
    have booked : Booked action mid b := next
    have below : mid.next_id < last_id := by rw [carried.next_id]; exact small (by simp)
    refine ⟨fun id given => .inl (booked.given below (carried.given given)),fun other same => ?_⟩
    cases same
    refine ⟨booked.named.trans carried.next_id,.inl ?_⟩
    rw [booked.named,booked.next_id]
    exact lt_saturating_succ below

theorem Logged.moves {conversions ids : List Nat} (logged : a.Logged conversions ids)
    (moves : Moves actions booked a b) (small : booked ≠ none → a.next_id < last_id)
    (clear : (∃ action ∈ booked, action.job ≠ none) → ∀ other ∈ a.pending, other.job ≠ some a.next_id) :
    b.Logged (conversions ++ actions.filterMap ScheduledAction.job) (ids ++ booked.toList.map ScheduledAction.action_id) := by
  have sound := logged.sound
  obtain ⟨mid,carried,_⟩ := id moves
  obtain ⟨once,uncompleted⟩ := sound.completing carried
  obtain ⟨given,named⟩ := moves.given small
  refine ⟨sound.moves moves small clear,List.nodup_append.mpr ⟨logged.once,once,?_⟩,fun id member => ?_,
    List.nodup_append.mpr ⟨logged.unique,?_,?_⟩,fun id member => ?_⟩
  · rintro id before _ now rfl
    obtain ⟨job,found,done⟩ := logged.converted id before
    obtain ⟨job',found',open_still⟩ := uncompleted id now
    cases found.symm.trans found'
    rw [done] at open_still
    cases open_still
  · have known : ∃ job, a.jobs.get? id = some job ∧
        (job.completed = true ∨ id ∈ actions.filterMap ScheduledAction.job) := by
      rcases List.mem_append.mp member with before | now
      · obtain ⟨job,found,done⟩ := logged.converted id before
        exact ⟨job,found,.inl done⟩
      · obtain ⟨job,found,_⟩ := uncompleted id now
        exact ⟨job,found,.inr now⟩
    obtain ⟨job,found,either⟩ := known
    obtain ⟨job',found',done⟩ := moves.completed sound small found
    exact ⟨job',found',done either⟩
  · cases booked <;> simp
  · rintro id before _ now rfl
    obtain ⟨action,there,rfl⟩ := List.mem_map.mp now
    have member : action ∈ booked := Option.mem_toList.mp there
    have below := small (by rintro rfl; cases member)
    have known := logged.given _ before
    rw [(named action member).1] at known
    unfold Given at known
    omega
  · rcases List.mem_append.mp member with before | now
    · exact given id (logged.given id before)
    · obtain ⟨action,there,rfl⟩ := List.mem_map.mp now
      exact (named action (Option.mem_toList.mp there)).2

end Keeping

end Agenda

end Bunting
