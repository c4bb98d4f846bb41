import Bunting.ExternalPostings

/-!
What the simulation commands do to the ledger, read off their events: a command
posts the entries of its events and no others. The amounts of a scheduled action
are those of the state it was scheduled in, which later states stay below.
-/

namespace Bunting
open Stateful

/-! ### Entries of actions and events -/

/-- What a facility job posts when it completes. -/
def FacilityJob.entries (terms : OrdMap InstrumentId InstrumentTerms) (facility : FacilityDefinition) (job : FacilityJob) :
    List Entry :=
  External.converted terms job.participant_id (-1) (facility.input_instrument.map (fun i => (i,job.input_quantity))) ++
    External.converted terms job.participant_id 1 (facility.output_instrument.map (fun i => (i,job.output_quantity)))

namespace SimulationState

def job_entries (terms : OrdMap InstrumentId InstrumentTerms) (sim : SimulationState) (job_id : Nat) : List Entry :=
  (sim.facility_jobs.get? job_id).elim [] (fun job =>
    (sim.facilities.get? job.facility_id).elim [] (fun facility => job.entries terms facility))

def entries (terms : OrdMap InstrumentId InstrumentTerms) (sim : SimulationState) (action : ScheduledAction) : List Entry :=
  match action.kind with
  | .Cashflow participant currency amount => [⟨participant,currency,0,{ balance := amount },{}⟩]
  | .CompleteFacilityJob job_id => sim.job_entries terms job_id
  | .ExpireInstrument _ | .ExerciseOption .. | .Deliver .. => []

def action (sim : SimulationState) (action_id : Nat) : Option ScheduledAction :=
  sim.scheduled_actions.find? (fun action => action.action_id = action_id)

end SimulationState

def SimulationEvent.entries (terms : OrdMap InstrumentId InstrumentTerms) (base : SimulationState) :
    SimulationEvent → List Entry
  | .ScheduledActionApplied action_id => (base.action action_id).elim [] (base.entries terms)
  | .FineApplied participant currency amount _ => [⟨participant,currency,0,{ balance := -amount },{}⟩]
  | .TenderSettled _ participant instrument side quantity price =>
    (terms.get? instrument).elim [] (fun T =>
      [⟨participant,T.currency,instrument,{ balance := -side.signed (price * quantity * T.multiplier) },
        { quantity := side.signed quantity }⟩])
  | .OtcSettled _ buyer seller instrument quantity price =>
    (terms.get? instrument).elim [] (fun T =>
      [⟨buyer,T.currency,instrument,{ balance := -(price * quantity * T.multiplier) },{ quantity }⟩,
        ⟨seller,T.currency,instrument,{ balance := price * quantity * T.multiplier },{ quantity := -quantity }⟩])
  | _ => []

/-! ### The simulation state of a run -/

instance : Std.Total ScheduledAction.before := ⟨fun a b => by unfold ScheduledAction.before; omega⟩
instance : IsTrans ScheduledAction ScheduledAction.before :=
  ⟨fun a b c => by unfold ScheduledAction.before; omega⟩

/-- What every simulation state of a run has in common with a later one. -/
structure SimSound (setup : Setup) (sim : SimulationState) : Prop where
  policy : sim.policy_version = SIMULATION_POLICY_VERSION
  sorted : sim.scheduled_actions.Pairwise ScheduledAction.before
  distinct : (sim.scheduled_actions.map ScheduledAction.action_id).Nodup
  settled : ∀ action ∈ sim.scheduled_actions, action.kind.unsettled = false
  facilities : ∀ {id facility}, sim.facilities.get? id = some facility →
    ∀ i ∈ facility.input_instrument.toList ++ facility.output_instrument.toList, ∃ T, setup.terms.get? i = some T
  jobs : ∀ {id job}, sim.facility_jobs.get? id = some job →
    0 < job.input_quantity ∧ 0 < job.output_quantity ∧ ∃ facility, sim.facilities.get? job.facility_id = some facility

def FacilityJob.opened (job : FacilityJob) : FacilityJob := { job with completed := false }

/-- The scheduled work of a state is part of that of an earlier one. -/
structure Below (base sim : SimulationState) : Prop where
  actions : ∀ action ∈ sim.scheduled_actions, action ∈ base.scheduled_actions
  facilities : sim.facilities = base.facilities
  jobs : ∀ id, (sim.facility_jobs.get? id).map FacilityJob.opened = (base.facility_jobs.get? id).map FacilityJob.opened

section States
variable {setup : Setup} {base sim sim' : SimulationState} {job : FacilityJob}

theorem Below.refl (sim : SimulationState) : Below sim sim := ⟨fun _ member => member,rfl,fun _ => rfl⟩

theorem Below.entries (below : Below base sim) (terms : OrdMap InstrumentId InstrumentTerms) (action : ScheduledAction) :
    sim.entries terms action = base.entries terms action := by
  have jobs (id : Nat) : sim.job_entries terms id = base.job_entries terms id := by
    have same := below.jobs id
    unfold SimulationState.job_entries
    rw [below.facilities]
    cases here : sim.facility_jobs.get? id with
    | none =>
      rw [here] at same
      rw [Option.map_eq_none_iff.mp same.symm]
    | some job =>
      rw [here] at same
      obtain ⟨job',there,opened⟩ := Option.map_eq_some_iff.mp same.symm
      rw [there]
      cases job
      cases job'
      cases opened
      rfl
  unfold SimulationState.entries
  cases action.kind <;> first | rfl | exact jobs _

/-- The state has the same policy, actions, facilities and jobs. -/
structure SameWork (sim sim' : SimulationState) : Prop where
  policy : sim'.policy_version = sim.policy_version
  actions : sim'.scheduled_actions = sim.scheduled_actions
  facilities : sim'.facilities = sim.facilities
  jobs : sim'.facility_jobs = sim.facility_jobs

theorem SimSound.of_same (sound : SimSound setup sim) (same : SameWork sim sim') : SimSound setup sim' := by
  obtain ⟨policy,actions,facilities,jobs⟩ := same
  exact ⟨by rw [policy]; exact sound.policy,by rw [actions]; exact sound.sorted,by rw [actions]; exact sound.distinct,
    by rw [actions]; exact sound.settled,
    by rw [facilities]; exact sound.facilities,by rw [facilities,jobs]; exact sound.jobs⟩

theorem Below.of_same (below : Below base sim) (same : SameWork sim sim') : Below base sim' := by
  obtain ⟨policy,actions,facilities,jobs⟩ := same
  exact ⟨by rw [actions]; exact below.actions,by rw [facilities]; exact below.facilities,by rw [jobs]; exact below.jobs⟩

theorem SimSound.action (sound : SimSound setup base) {action : ScheduledAction} (member : action ∈ base.scheduled_actions) :
    base.action action.action_id = some action := by
  have distinct := sound.distinct
  unfold SimulationState.action
  generalize base.scheduled_actions = actions at member distinct ⊢
  induction actions with
  | nil => cases member
  | cons first rest ih =>
    rw [List.map_cons,List.nodup_cons] at distinct
    rw [List.find?_cons]
    rcases List.mem_cons.mp member with rfl | later
    · simp
    · have other : first.action_id ≠ action.action_id := fun same =>
        distinct.1 (same ▸ List.mem_map_of_mem later)
      simp only [other,decide_false]
      exact ih later distinct.2

/-- Completing a job changes neither its amounts nor any other job. -/
theorem Below.complete (below : Below base sim) {id : Nat} (found : sim.facility_jobs.get? id = some job) :
    Below base { sim with facility_jobs := sim.facility_jobs.insert id { job with completed := true } } := by
  refine ⟨below.actions,below.facilities,fun j => ?_⟩
  rw [← below.jobs,OrdMap.get?_insert]
  split_ifs with here
  · rw [here,found]; rfl
  · rfl

theorem SimSound.complete (sound : SimSound setup sim) {id : Nat} (found : sim.facility_jobs.get? id = some job) :
    SimSound setup { sim with facility_jobs := sim.facility_jobs.insert id { job with completed := true } } := by
  have kept := sound.jobs found
  exact { sound with jobs := fun there => OrdMap.of_insert there kept fun _ _ => sound.jobs }

end States

/-! ### Tenders and negotiations -/

/-- Of the tenders and negotiations only open ones have changed, and those have expired. -/
structure Lapses (sim sim' : SimulationState) : Prop where
  tenders : ∀ id, sim'.tenders.get? id = sim.tenders.get? id ∨ ∃ tender, sim.tenders.get? id = some tender ∧
    tender.status = .open ∧ sim'.tenders.get? id = some { tender with status := .expired }
  otc : ∀ id, sim'.otc.get? id = sim.otc.get? id ∨ ∃ otc, sim.otc.get? id = some otc ∧
    otc.status.negotiable = true ∧ sim'.otc.get? id = some { otc with status := .expired }

/-- The state has the same tenders and negotiations. -/
structure SameDeals (sim sim' : SimulationState) : Prop where
  tenders : sim'.tenders = sim.tenders
  otc : sim'.otc = sim.otc

theorem SameDeals.trans {a b c : SimulationState} (first : SameDeals a b) (second : SameDeals b c) : SameDeals a c :=
  ⟨second.tenders.trans first.tenders,second.otc.trans first.otc⟩

theorem SameDeals.lapses {sim sim' : SimulationState} (same : SameDeals sim sim') : Lapses sim sim' :=
  ⟨fun id => .inl (by rw [same.tenders]),fun id => .inl (by rw [same.otc])⟩

/-! ### Scheduled actions -/

/-- A world under a base state. -/
structure Standing (setup : Setup) (base : SimulationState) (world : World) : Prop where
  terms : world.ledger.terms = setup.terms
  sound : SimSound setup world.sim
  below : Below base world.sim

/-- The failures the source reports as an overflow. -/
def SimulationError.Overflowed (e : SimulationError) : Prop := e = .ArithmeticOverflow ∨ e = .Ledger .ArithmeticOverflow

/-- An action that is applied after others can settle: a cashflow is in a currency, and a job's holding has its input free. -/
def Settleable (setup : Setup) (base : SimulationState) (ledger : Ledger) (earlier : List ScheduledAction)
    (action : ScheduledAction) : Prop :=
  match action.kind with
  | .Cashflow _ currency _ => currency ≠ 0
  | .CompleteFacilityJob job_id => ∃ job facility, base.facility_jobs.get? job_id = some job ∧
    base.facilities.get? job.facility_id = some facility ∧ ∀ i ∈ facility.input_instrument,
      (ledger.position_of job.participant_id i).reserved + job.input_quantity ≤
        (ledger.position_of job.participant_id i).quantity +
          ((earlier.flatMap (base.entries setup.terms)).map (Entry.moved job.participant_id i)).sum
  | .ExpireInstrument _ | .ExerciseOption .. | .Deliver .. => True

section Actions
variable {setup : Setup} {base : SimulationState} {w w' : World} {action : ScheduledAction} {x : Unit}
  {events : List SimulationEvent}

theorem on_ledger_ok {α : Type} {m : EStateM LedgerError Ledger α} {a : α} (ran : (on_ledger m).run w = .ok a w') :
    ∃ ledger, m.run w.ledger = .ok a ledger ∧ w' = { w with ledger } := by
  obtain ⟨ledger,inner,rfl⟩ := zoom_eq_ok.mp ran
  exact ⟨ledger,inner,rfl⟩

theorem on_ledger_error {α : Type} {m : EStateM LedgerError Ledger α} {e : SimulationError}
    (failed : (on_ledger m).run w = .error e w') : ∃ d ledger, m.run w.ledger = .error d ledger ∧ e = .Ledger d := by
  obtain ⟨d,ledger,inner,rfl,_⟩ := zoom_eq_error.mp failed
  exact ⟨d,ledger,inner,rfl⟩

section
variable (standing : Standing setup base w) {job_id : Nat} {e : SimulationError}
include standing

theorem complete_facility_job_ok (ran : (SimulationState.complete_facility_job job_id).run w = .ok x w') :
    External setup (base.job_entries setup.terms job_id) w.ledger w'.ledger ∧ Standing setup base w' ∧
      w'.sim.scheduled_actions = w.sim.scheduled_actions ∧ w'.sim.clock = w.sim.clock ∧
      w'.sim.lifecycle = w.sim.lifecycle ∧ SameDeals w.sim w'.sim := by
  simp only [SimulationState.complete_facility_job,modify_sim,returned] at ran
  obtain ⟨job,found,facility,at_facility,_,on_ledger,rfl⟩ := ran
  obtain ⟨ledger,converts,rfl⟩ := on_ledger_ok on_ledger
  have posted := External.convert standing.terms converts
  have entries : base.job_entries setup.terms job_id = job.entries setup.terms facility := by
    have same := standing.below.entries setup.terms ⟨0,0,.CompleteFacilityJob job_id⟩
    simp only [SimulationState.entries] at same
    rw [← same,SimulationState.job_entries,found]
    simp only [Option.elim,at_facility]
  rw [entries]
  exact ⟨posted,⟨posted.posts.terms.trans standing.terms,standing.sound.complete found,standing.below.complete found⟩,
    rfl,rfl,rfl,rfl,rfl⟩

theorem apply_one_ok (ran : (SimulationState.apply_one action).run w = .ok x w') :
    External setup (base.entries setup.terms action) w.ledger w'.ledger ∧ Standing setup base w' ∧
      w'.sim.scheduled_actions = w.sim.scheduled_actions ∧ w'.sim.clock = w.sim.clock ∧
      w'.sim.lifecycle = w.sim.lifecycle ∧ SameDeals w.sim w'.sim := by
  simp only [SimulationState.apply_one,modify_sim,returned] at ran
  obtain ⟨between,applies,rfl⟩ := ran
  suffices done : External setup (base.entries setup.terms action) w.ledger between.ledger ∧
      Standing setup base between ∧ between.sim.scheduled_actions = w.sim.scheduled_actions ∧
      between.sim.clock = w.sim.clock ∧ between.sim.lifecycle = w.sim.lifecycle ∧ SameDeals w.sim between.sim by
    obtain ⟨posted,standing',actions,clock,lifecycle,deals⟩ := done
    exact ⟨posted,⟨standing'.terms,standing'.sound.of_same ⟨rfl,rfl,rfl,rfl⟩,standing'.below.of_same ⟨rfl,rfl,rfl,rfl⟩⟩,
      actions,clock,lifecycle,deals.tenders,deals.otc⟩
  unfold SimulationState.apply_scheduled at applies
  unfold SimulationState.entries
  cases kind : action.kind with
  | Cashflow participant currency amount =>
    rw [kind] at applies
    obtain ⟨ledger,posts,rfl⟩ := on_ledger_ok applies
    have posted : External setup _ w.ledger ledger := External.post_cash posts
    exact ⟨posted,⟨posted.posts.terms.trans standing.terms,standing.sound,standing.below⟩,rfl,rfl,rfl,rfl,rfl⟩
  | CompleteFacilityJob job_id =>
    rw [kind] at applies
    exact complete_facility_job_ok standing applies
  | ExpireInstrument instrument =>
    rw [kind] at applies
    cases modify_eq_ok.mp applies
    exact ⟨.nil,⟨standing.terms,standing.sound.of_same ⟨rfl,rfl,rfl,rfl⟩,standing.below.of_same ⟨rfl,rfl,rfl,rfl⟩⟩,rfl,rfl,
      rfl,rfl,rfl⟩
  | ExerciseOption participant instrument quantity =>
    rw [kind] at applies
    exact (throw_eq_ok.mp applies).elim
  | Deliver participant instrument quantity =>
    rw [kind] at applies
    exact (throw_eq_ok.mp applies).elim

theorem complete_facility_job_error {job : FacilityJob} {facility : FacilityDefinition}
    (known : base.facility_jobs.get? job_id = some job)
    (at_facility : base.facilities.get? job.facility_id = some facility)
    (free : ∀ i ∈ facility.input_instrument, (w.ledger.position_of job.participant_id i).reserved + job.input_quantity ≤
      (w.ledger.position_of job.participant_id i).quantity)
    (failed : (SimulationState.complete_facility_job job_id).run w = .error e w') : e.Overflowed := by
  have same := standing.below.jobs job_id
  rw [known] at same
  obtain ⟨job',found,opened⟩ := Option.map_eq_some_iff.mp same
  obtain ⟨input,output,_⟩ := standing.sound.jobs found
  rw [← standing.below.facilities] at at_facility
  have instruments := standing.sound.facilities at_facility
  rw [← standing.terms] at instruments
  have amounts : job'.facility_id = job.facility_id ∧ job'.participant_id = job.participant_id ∧
      job'.input_quantity = job.input_quantity := by
    cases job; cases job'; cases opened; exact ⟨rfl,rfl,rfl⟩
  simp only [SimulationState.complete_facility_job,modify_sim,returned,raised] at failed
  obtain ⟨missing,_⟩ | ⟨_,found',⟨missing,_⟩ | ⟨_,at_facility',stuck⟩⟩ := failed
  · rw [found] at missing; cases missing
  · cases found.symm.trans found'
    rw [amounts.1,at_facility] at missing; cases missing
  · cases found.symm.trans found'
    rw [amounts.1] at at_facility'
    cases at_facility.symm.trans at_facility'
    obtain ⟨d,ledger,inner,rfl⟩ := on_ledger_error stuck
    refine .inr (congrArg _ (Ledger.convert_error (fun taken member => ?_) (fun given member => ?_) inner))
    · obtain ⟨i,here,rfl⟩ := Option.map_eq_some_iff.mp member
      refine ⟨instruments i (List.mem_append_left _ (Option.mem_toList.mpr here)),input,?_⟩
      simp only [amounts.2.1,amounts.2.2]
      exact free i here
    · obtain ⟨i,here,rfl⟩ := Option.map_eq_some_iff.mp member
      exact ⟨instruments i (List.mem_append_right _ (Option.mem_toList.mpr here)),output⟩

/-- An action that can settle after the earlier ones fails only by overflow. -/
theorem apply_one_error {earlier : List ScheduledAction} {ledger : Ledger} (settled : action.kind.unsettled = false)
    (posted : External setup (earlier.flatMap (base.entries setup.terms)) ledger w.ledger)
    (settleable : Settleable setup base ledger earlier action)
    (failed : (SimulationState.apply_one action).run w = .error e w') : e.Overflowed := by
  simp only [SimulationState.apply_one,modify_sim,raised] at failed
  unfold SimulationState.apply_scheduled at failed
  unfold Settleable at settleable
  cases kind : action.kind with
  | Cashflow participant currency amount =>
    rw [kind] at failed settleable
    obtain ⟨d,ledger,stuck,rfl⟩ := on_ledger_error failed
    exact .inr (congrArg _ (Ledger.post_cash_error settleable stuck))
  | CompleteFacilityJob job_id =>
    rw [kind] at failed settleable
    obtain ⟨job,facility,known,at_facility,free⟩ := settleable
    refine complete_facility_job_error standing known at_facility (fun i member => ?_) failed
    have held := posted.posts.reserved posted.free (.Inventory job.participant_id i)
    simp only [Counter.read] at held
    rw [held,posted.posts.quantity]
    exact free i member
  | ExpireInstrument instrument =>
    rw [kind] at failed
    cases failed
  | ExerciseOption participant instrument quantity => rw [kind] at settled; cases settled
  | Deliver participant instrument quantity => rw [kind] at settled; cases settled

end

/-- What is known after the first of the due actions have been applied. -/
structure Applying (setup : Setup) (base : SimulationState) (w : World) (actions : List ScheduledAction) (kept : List ScheduledAction)
    (rest : List ScheduledAction) (w' : World) : Prop where
  standing : Standing setup base w'
  posted : ∃ earlier, actions = earlier ++ rest ∧
    External setup (earlier.flatMap (base.entries setup.terms)) w.ledger w'.ledger
  actions : w'.sim.scheduled_actions = kept
  clock : w'.sim.clock = w.sim.clock
  lifecycle : w'.sim.lifecycle = w.sim.lifecycle
  deals : SameDeals w.sim w'.sim

/-- Each of the actions can settle after those before it. -/
def AllSettleable (setup : Setup) (base : SimulationState) (ledger : Ledger) (actions : List ScheduledAction) : Prop :=
  ∀ earlier action later, actions = earlier ++ action :: later → Settleable setup base ledger earlier action

theorem apply_actions_meets (w : World) (actions kept : List ScheduledAction)
    (settled : ∀ action ∈ actions, action.kind.unsettled = false) :
    Meets (Applying setup base w actions kept actions) (forM actions SimulationState.apply_one)
      (fun _ => Applying setup base w actions kept [])
      (fun e _ => AllSettleable setup base w.ledger actions → e.Overflowed) := by
  refine forM_meets _ (fun action rest u applying => ?_) actions
  obtain ⟨standing,⟨earlier,split,posted⟩,kept_eq,clock,lifecycle,deals⟩ := applying
  cases ran : (SimulationState.apply_one action).run u with
  | ok x u' =>
    obtain ⟨posted',standing',actions',clock',lifecycle',deals'⟩ := apply_one_ok standing ran
    refine ⟨standing',⟨earlier ++ [action],by simp [split],?_⟩,actions'.trans kept_eq,clock'.trans clock,
      lifecycle'.trans lifecycle,deals.trans deals'⟩
    simpa using posted.append posted'
  | error e u' =>
    intro all
    exact apply_one_error standing (settled action (by simp [split])) posted (all earlier action rest split) ran

/-- The events of the applied actions stand for what the actions post. -/
theorem applied_entries (sound : SimSound setup base) {actions : List ScheduledAction}
    (members : ∀ action ∈ actions, action ∈ base.scheduled_actions) :
    (actions.map (fun action => SimulationEvent.ScheduledActionApplied action.action_id)).flatMap
      (SimulationEvent.entries setup.terms base) = actions.flatMap (base.entries setup.terms) := by
  rw [List.flatMap_map]
  refine List.flatMap_congr fun action member => ?_
  simp only [SimulationEvent.entries,sound.action (members action member),Option.elim]

theorem Standing.drop_due (standing : Standing setup base w) (time : Nat) :
    Standing setup base { w with sim := { w.sim with
      scheduled_actions := w.sim.scheduled_actions.dropWhile (fun action => action.effective_at ≤ time) } } := by
  have rest := List.dropWhile_sublist (fun action : ScheduledAction => decide (action.effective_at ≤ time))
    (l := w.sim.scheduled_actions)
  refine ⟨standing.terms,⟨standing.sound.policy,standing.sound.sorted.sublist rest,standing.sound.distinct.sublist (rest.map _),
    fun action member => standing.sound.settled action (rest.subset member),standing.sound.facilities,standing.sound.jobs⟩,
    fun action member => standing.below.actions action (rest.subset member),standing.below.facilities,standing.below.jobs⟩

/-- The simulation events that stand for a posting. -/
def SimulationEvent.posts : SimulationEvent → Bool
  | .ScheduledActionApplied _ | .FineApplied .. | .TenderSettled .. | .OtcSettled .. => true
  | _ => false

/-- The events of the sessions, which the engine emits and no simulation command does. -/
def SimulationEvent.session : SimulationEvent → Bool
  | .SessionPhaseChanged .. | .AuctionUncrossed .. | .DayClosed .. | .DaySettled .. => true
  | _ => false

/-- What catching up with a time leaves. -/
structure CaughtUp (setup : Setup) (base : SimulationState) (w : World) (time : Nat) (events : List SimulationEvent)
    (w' : World) : Prop where
  standing : Standing setup base w'
  posted : External setup ((w.sim.due time).flatMap (base.entries setup.terms)) w.ledger w'.ledger
  entries : events.flatMap (SimulationEvent.entries setup.terms base) =
    (w.sim.due time).flatMap (base.entries setup.terms)
  actions : w'.sim.scheduled_actions = w.sim.scheduled_actions.dropWhile (fun action => action.effective_at ≤ time)
  own : events.all (fun event => !event.session) = true
  posting : events.filter SimulationEvent.posts =
    (w.sim.due time).map (fun action => .ScheduledActionApplied action.action_id)
  lifecycle : w'.sim.lifecycle = w.sim.lifecycle
  lapses : Lapses w.sim w'.sim

theorem SimulationState.apply_due_meets (sound : SimSound setup base) (standing : Standing setup base w) (time : Nat) :
    Meets (fun u => w = u) (SimulationState.apply_due time)
      (fun events u => CaughtUp setup base w time events u ∧ u.sim.clock = w.sim.clock ∧ SameDeals w.sim u.sim)
      (fun e _ => AllSettleable setup base w.ledger (w.sim.due time) → e.Overflowed) := by
  have inside : ∀ action ∈ w.sim.due time, action ∈ w.sim.scheduled_actions := fun action member =>
    (List.takeWhile_sublist _).subset member
  refine get_meets fun u same => ?_
  subst same
  have drops : Meets (fun u => w = u) (modify_sim (fun sim => { sim with
      scheduled_actions := sim.scheduled_actions.dropWhile (fun action => action.effective_at ≤ time) }))
      (fun _ => Applying setup base w (w.sim.due time)
        (w.sim.scheduled_actions.dropWhile (fun action => action.effective_at ≤ time)) (w.sim.due time))
      (fun e _ => AllSettleable setup base w.ledger (w.sim.due time) → e.Overflowed) := by
    rintro _ rfl
    exact ⟨standing.drop_due time,⟨[],rfl,.nil⟩,rfl,rfl,rfl,rfl,rfl⟩
  refine drops.bind fun _ => (apply_actions_meets w (w.sim.due time) _ fun action member =>
    standing.sound.settled action (inside action member)).bind fun _ => pure_meets fun u applied => ?_
  obtain ⟨standing',⟨earlier,split,posted⟩,actions,clock,lifecycle,deals⟩ := applied
  rw [List.append_nil] at split
  subst split
  refine ⟨⟨standing',posted,applied_entries sound fun action member => standing.below.actions action (inside action member),
    actions,by simp [SimulationEvent.session],?_,lifecycle,deals.lapses⟩,clock,deals⟩
  exact List.filter_eq_self.mpr fun event member => by obtain ⟨_,_,rfl⟩ := List.mem_map.mp member; rfl

theorem CaughtUp.of_same {more : List SimulationEvent} {time : Nat} {sim : SimulationState}
    (caught : CaughtUp setup base w time events w') (same : SameWork w'.sim sim)
    (quiet : more.flatMap (SimulationEvent.entries setup.terms base) = [])
    (own : more.all (fun event => !event.session) = true) (silent : more.filter SimulationEvent.posts = [])
    (lifecycle : sim.lifecycle = w'.sim.lifecycle) (lapses : Lapses w.sim sim) :
    CaughtUp setup base w time (events ++ more) { w' with sim } where
  standing := ⟨caught.standing.terms,caught.standing.sound.of_same same,caught.standing.below.of_same same⟩
  posted := caught.posted
  entries := by rw [List.flatMap_append,quiet,List.append_nil]; exact caught.entries
  actions := same.actions.trans caught.actions
  own := by rw [List.all_append,caught.own,own]; rfl
  posting := by rw [List.filter_append,silent,List.append_nil]; exact caught.posting
  lifecycle := lifecycle.trans caught.lifecycle
  lapses := lapses

/-- A sweep expires open tenders and negotiations and leaves the rest. -/
theorem sweep_lapses {sim sim' : SimulationState} (same : SameDeals sim sim') (time : Nat) :
    Lapses sim { sim' with
      tenders := sim'.tenders.mapValues (fun _ tender =>
        if tender.lapsed time then { tender with status := .expired } else tender)
      otc := sim'.otc.mapValues (fun _ otc => if otc.lapsed time then { otc with status := .expired } else otc) } := by
  refine ⟨fun id => ?_,fun id => ?_⟩
  · rw [same.tenders,OrdMap.get?_mapValues]
    cases found : sim.tenders.get? id with
    | none => exact .inl rfl
    | some tender =>
      by_cases lapsed : tender.lapsed time = true
      · exact .inr ⟨tender,rfl,(of_decide_eq_true lapsed).1,by simp [lapsed]⟩
      · exact .inl (by simp [lapsed])
  · rw [same.otc,OrdMap.get?_mapValues]
    cases found : sim.otc.get? id with
    | none => exact .inl rfl
    | some otc =>
      by_cases lapsed : otc.lapsed time = true
      · exact .inr ⟨otc,rfl,(of_decide_eq_true lapsed).1,by simp [lapsed]⟩
      · exact .inl (by simp [lapsed])

theorem SimulationState.sweep_expired_meets {time : Nat} {clock : LogicalClock} (sweep : Bool)
    {E : SimulationError → World → Prop} :
    Meets (fun u => CaughtUp setup base w time events u ∧ u.sim.clock = clock ∧ SameDeals w.sim u.sim)
      (if sweep then SimulationState.sweep_expired time else pure [])
      (fun expired u => CaughtUp setup base w time (events ++ expired) u ∧ u.sim.clock = clock) E := by
  refine ite_meets (fun _ => ?_) fun _ => pure_meets fun u ⟨caught,clock,_⟩ => by
    rw [List.append_nil]
    exact ⟨caught,clock⟩
  rintro u ⟨caught,clock,deals⟩
  refine ⟨caught.of_same ⟨rfl,rfl,rfl,rfl⟩ (List.flatMap_eq_nil_iff.mpr fun event member => ?_)
    (List.all_eq_true.mpr fun event member => ?_) (List.filter_eq_nil_iff.mpr fun event member => ?_) rfl
    (sweep_lapses deals time),clock⟩ <;>
  rcases List.mem_append.mp member with inside | inside <;> obtain ⟨_,_,rfl⟩ := List.mem_map.mp inside <;>
  first | rfl | simp [SimulationEvent.posts]

theorem SimulationState.catch_up_meets (sound : SimSound setup base) (standing : Standing setup base w) (time : Nat)
    (sweep : Bool) :
    Meets (fun u => w = u) (SimulationState.catch_up time sweep)
      (fun events u => CaughtUp setup base w time events u ∧ u.sim.clock = { w.sim.clock with now := time })
      (fun e _ => w.sim.clock.now ≤ time → AllSettleable setup base w.ledger (w.sim.due time) → e.Overflowed) := by
  refine get_meets fun u same => ?_
  subst same
  let moved : World := { w with sim := { w.sim with clock := { w.sim.clock with now := time } } }
  have standing' : Standing setup base moved :=
    ⟨standing.terms,standing.sound.of_same ⟨rfl,rfl,rfl,rfl⟩,standing.below.of_same ⟨rfl,rfl,rfl,rfl⟩⟩
  have starts : Meets (fun u => w = u) (do
      refuse (time < w.sim.clock.now) SimulationError.LogicalTimeRegression
      modify_sim (fun sim => { sim with clock := { sim.clock with now := time } })) (fun _ u => moved = u)
      (fun e _ => w.sim.clock.now ≤ time → AllSettleable setup base w.ledger (w.sim.due time) → e.Overflowed) := by
    refine Meets.bind (Q := fun _ u => w = u) (refuse_meets (fun _ _ same => same) fun _ late _ in_time => ?_) fun _ => ?_
    · omega
    · rintro _ rfl; rfl
  have goes : Meets (fun u => moved = u) (do
      let applied ← SimulationState.apply_due time
      let expired ← (if sweep then SimulationState.sweep_expired time else pure [])
      pure (applied ++ expired))
      (fun events u => CaughtUp setup base w time events u ∧ u.sim.clock = { w.sim.clock with now := time })
      (fun e _ => w.sim.clock.now ≤ time → AllSettleable setup base w.ledger (w.sim.due time) → e.Overflowed) := by
    refine ((SimulationState.apply_due_meets sound standing' time).fault fun e _ only _ => only).bind fun events =>
      (SimulationState.sweep_expired_meets sweep).bind fun expired => pure_meets fun u holds => ?_
    exact ⟨⟨holds.1.standing,holds.1.posted,holds.1.entries,holds.1.actions,holds.1.own,holds.1.posting,
      holds.1.lifecycle,holds.1.lapses.tenders,holds.1.lapses.otc⟩,holds.2⟩
  have both := starts.bind fun _ => goes
  rw [bind_assoc] at both
  exact both

end Actions

end Bunting
