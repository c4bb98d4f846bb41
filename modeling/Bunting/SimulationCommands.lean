import Bunting.SimulationEffects

/-!
The simulation commands one by one. What a command that returned has done is
said once (`Does`); it has posted the entries of its events and nothing else
(`Does.posted`).
-/

namespace Bunting
open Stateful

/-- How far a command moves the run clock. -/
def SimulationCommand.jump (step_ns : Nat) : SimulationCommand → Nat
  | .Advance steps => step_ns * steps
  | _ => 0

/-- A command that can apply a scheduled action or settle a trade outside the books. -/
def SimulationCommand.moves : SimulationCommand → Bool
  | .Advance _ | .DecideTender _ .Accept | .DecideOtc _ .Accept => true
  | _ => false

/-- An event that a scheduled action was applied or a trade outside the books settled. -/
def SimulationEvent.moves : SimulationEvent → Bool
  | .ScheduledActionApplied _ | .TenderSettled .. | .OtcSettled .. => true
  | _ => false

/-- A command on the run itself: its lifecycle, pacing, halts, news and reports. -/
def SimulationCommand.manages : SimulationCommand → Bool
  | .StartRun | .PauseRun | .ResumeRun | .ClockTick | .SetPacing .. | .Terminate .. | .SetListingHalt .. | .PublishNews ..
  | .ScoreIteration => true
  | _ => false

/-- An event that stands for no posting and is not one of the sessions. -/
def SimulationEvent.quiet (event : SimulationEvent) : Bool := !event.posts && !event.session

/-- What deciding on a tender tells and leaves of the ledger. -/
inductive TenderDecided (context : SimulationContext) (ledger : Ledger) (id : TenderId) (tender : TenderState) :
    TenderDecision → List SimulationEvent → Ledger → Prop
  | accepted {ledger'} (fill : (Ledger.settle (tender.fill context)).run ledger = .ok () ledger') :
      TenderDecided context ledger id tender .Accept
        [.TenderSettled id tender.participant_id tender.instrument_id tender.side tender.quantity tender.price] ledger'
  | declined : TenderDecided context ledger id tender .Decline [] ledger

/-- What deciding on a negotiation tells and leaves of the ledger. -/
inductive OtcDecided (context : SimulationContext) (ledger : Ledger) (id : NegotiationId) (otc : OtcState) :
    OtcDecision → List SimulationEvent → Ledger → Prop
  | accepted {ledger'} (fill : (Ledger.settle ⟨otc.instrument_id,otc.price,otc.quantity,some (context.party otc.buyer),
      some (context.party otc.seller),false⟩).run ledger = .ok () ledger') :
      OtcDecided context ledger id otc .Accept
        [.OtcSettled id otc.buyer otc.seller otc.instrument_id otc.quantity otc.price] ledger'
  | dropped {decision} (other : decision ≠ .Accept) : OtcDecided context ledger id otc decision [] ledger

namespace SimulationState

def book (sim : SimulationState) (effective_at : Nat) (kind : ScheduledActionKind) : SimulationState :=
  { sim with
    next_action_id := saturating_succ sim.next_action_id
    scheduled_actions := (sim.scheduled_actions ++ [ScheduledAction.mk sim.next_action_id effective_at kind]).insertionSort
      ScheduledAction.before }

/-- An action can be booked for a time: it is ahead, and no pending action has the next id. -/
def Bookable (sim : SimulationState) (effective_at : Nat) : Prop :=
  sim.clock.now < effective_at ∧ ∀ other ∈ sim.scheduled_actions, other.action_id ≠ sim.next_action_id

end SimulationState

/-- What a command that returned has done. -/
inductive Does (context : SimulationContext) (actor : ParticipantId) (time : Nat) (w : World) :
    SimulationCommand → List SimulationEvent → World → Prop
  | managed {command events} {lifecycle : RunLifecycle} {mode : ClockMode} {halted_instruments : OrdSet InstrumentId}
      {private_news : OrdMap ParticipantId (List NewsId)} {news : List NewsItem}
      {administrator_changes : List AdministratorChange} {reports : List IterationReport}
      (own : command.manages = true) (silent : events.all SimulationEvent.quiet = true) :
      Does context actor time w command events { w with sim := { w.sim with
        lifecycle, halted_instruments, private_news, news, administrator_changes, reports
        clock := { w.sim.clock with mode } } }
  | tender_opened {id participant instrument side quantity price expires_at} (ahead : time < expires_at)
      (fresh : w.sim.tenders.get? id = none) :
      Does context actor time w (.OpenTender id participant instrument side quantity price expires_at)
        [.TenderChanged id .open] { w with sim := { w.sim with
          tenders := w.sim.tenders.insert id ⟨id,participant,instrument,side,quantity,price,expires_at,.open⟩ } }
  | tender_decided {id tender decision events ledger} (found : w.sim.tenders.get? id = some tender)
      (owner : tender.participant_id = actor) (status : tender.status = .open) (in_time : time < tender.expires_at)
      (decided : TenderDecided context w.ledger id tender decision events ledger) :
      Does context actor time w (.DecideTender id decision) (.TenderChanged id decision.status :: events)
        { w with
          ledger
          sim := { w.sim with tenders := w.sim.tenders.insert id { tender with status := decision.status } } }
  | otc_opened {id counterparty instrument side quantity price expires_at} (ahead : time < expires_at)
      (fresh : w.sim.otc.get? id = none) (apart : counterparty ≠ actor) :
      Does context actor time w (.OpenOtc id counterparty instrument side quantity price expires_at)
        [.OtcChanged id .proposed] { w with sim := { w.sim with
          otc := w.sim.otc.insert id
            ⟨id,actor,counterparty,instrument,side,quantity,price,expires_at,.proposed,counterparty⟩ } }
  | otc_countered {id otc quantity price} (found : w.sim.otc.get? id = some otc) (awaited : otc.awaiting = actor)
      (status : otc.status.negotiable = true) (in_time : time < otc.expires_at) :
      Does context actor time w (.CounterOtc id quantity price) [.OtcChanged id .countered]
        { w with sim := { w.sim with
          otc := w.sim.otc.insert id { otc with quantity, price, status := .countered, awaiting :=
            if actor = otc.proposer_id then otc.counterparty_id else otc.proposer_id } } }
  | otc_decided {id otc decision events ledger} (found : w.sim.otc.get? id = some otc)
      (awaited : otc.awaiting = actor ∨ decision = .Break) (status : otc.status.negotiable = true)
      (in_time : time < otc.expires_at) (decided : OtcDecided context w.ledger id otc decision events ledger) :
      Does context actor time w (.DecideOtc id decision) (.OtcChanged id decision.status :: events)
        { w with
          ledger
          sim := { w.sim with otc := w.sim.otc.insert id { otc with status := decision.status } } }
  | fined {participant currency amount reason ledger} (administrator_changes : List AdministratorChange)
      (posts : (Ledger.post_cash participant currency (-amount)).run w.ledger = .ok () ledger) :
      Does context actor time w (.ApplyFine participant currency amount reason)
        [.FineApplied participant currency amount SIMULATION_POLICY_VERSION,.AdministratorChangeRecorded reason]
        { w with ledger, sim := { w.sim with administrator_changes } }
  | cashflow_scheduled {participant currency amount effective_at reason} (bookable : w.sim.Bookable effective_at) :
      Does context actor time w (.ScheduleCashflow participant currency amount effective_at reason)
        [.CashflowScheduled participant currency amount]
        { w with sim := w.sim.book effective_at (.Cashflow participant currency amount) }
  | job_scheduled {facility_id facility participant reserved input_quantity output_quantity completes_at}
      (at_facility : w.sim.facilities.get? facility_id = some facility)
      (summed : w.sim.reserved_capacity facility_id = some reserved) (taken : 0 < input_quantity)
      (given : 0 < output_quantity)
      (fits : ¬ (to_i64 (reserved + input_quantity)).all (fun total => total > facility.capacity) = true)
      (bookable : w.sim.Bookable completes_at) :
      Does context actor time w (.ScheduleFacilityJob facility_id participant input_quantity output_quantity completes_at)
        [.FacilityJobScheduled facility_id participant]
        { w with sim := { w.sim.book completes_at (.CompleteFacilityJob w.sim.next_action_id) with
          facility_jobs := w.sim.facility_jobs.insert w.sim.next_action_id
            ⟨w.sim.next_action_id,facility_id,participant,input_quantity,output_quantity,completes_at,false⟩ } }
  | advanced {steps later w'}
      (catches : (SimulationState.catch_up (w.sim.clock.now + w.sim.clock.step_ns * steps) true).run w = .ok later w') :
      Does context actor time w (.Advance steps)
        (.ClockAdvanced w.sim.clock.now (w.sim.clock.now + w.sim.clock.step_ns * steps) :: later) w'

def SimulationState.Upcoming (sim : SimulationState) : Prop :=
  ∀ action ∈ sim.scheduled_actions, sim.clock.now < action.effective_at

structure Posted (setup : Setup) (base : SimulationState) (moves : Bool) (jump : Nat) (w : World)
    (events : List SimulationEvent) (w' : World) : Prop where
  posted : External setup (events.flatMap (SimulationEvent.entries setup.terms base)) w.ledger w'.ledger
  sound : SimSound setup w'.sim
  own : events.all (fun event => !event.session) = true
  still : moves = false → events.all (fun event => !event.moves) = true
  now : w'.sim.clock.now = w.sim.clock.now + jump
  upcoming : w.sim.Upcoming → w'.sim.Upcoming

section Commands
variable {setup : Setup} {base : SimulationState} {w w' : World} {events : List SimulationEvent} {x : Unit}

variable {context : SimulationContext}

namespace SimulationState

/-! ### Checks and records -/

theorem require_instrument_eq_ok {instrument : InstrumentId} :
    (require_instrument instrument).run w = .ok x w' ↔ (∃ T, w.ledger.terms.get? instrument = some T) ∧ w = w' := by
  simp only [require_instrument,returned,true_and,exists_and_right]

theorem require_lifecycle_eq_ok {required : RunLifecycle} :
    (require_lifecycle required).run w = .ok x w' ↔ w.sim.lifecycle = required ∧ w = w' := by
  simp only [require_lifecycle,returned,ne_eq,not_not]

theorem next_action_eq_ok {id : Nat} :
    next_action.run w = .ok id w' ↔ w.sim.next_action_id = id ∧
      { w with sim := { w.sim with next_action_id := saturating_succ w.sim.next_action_id } } = w' := by
  simp only [next_action,modify_sim,returned]

/-! ### What each command does -/

theorem settle_tender_ok {id : TenderId} {tender : TenderState} {decision : TenderDecision}
    (ran : (settle_tender context id tender decision).run w = .ok events w') :
    ∃ ledger, w' = { w with ledger } ∧ TenderDecided context w.ledger id tender decision events ledger := by
  cases decision with
  | Accept =>
    simp only [settle_tender,returned] at ran
    obtain ⟨_,fills,rfl,rfl⟩ := ran
    obtain ⟨ledger,fill,rfl⟩ := on_ledger_ok fills
    exact ⟨ledger,rfl,.accepted fill⟩
  | Decline =>
    cases ran
    exact ⟨_,rfl,.declined⟩

theorem settle_otc_ok {id : NegotiationId} {otc : OtcState} {decision : OtcDecision}
    (ran : (settle_otc context id otc decision).run w = .ok events w') :
    ∃ ledger, w' = { w with ledger } ∧ OtcDecided context w.ledger id otc decision events ledger := by
  cases decision with
  | Accept =>
    simp only [settle_otc,returned] at ran
    obtain ⟨_,fills,rfl,rfl⟩ := ran
    obtain ⟨ledger,fill,rfl⟩ := on_ledger_ok fills
    exact ⟨ledger,rfl,.accepted fill⟩
  | Reject | Break =>
    cases ran
    exact ⟨_,rfl,.dropped (by simp)⟩

theorem apply_does {actor : ParticipantId} {time : Nat} {command : SimulationCommand}
    (ran : (apply context actor time command).run w = .ok events w') : Does context actor time w command events w' := by
  simp only [apply,returned] at ran
  obtain ⟨_,ran⟩ := ran
  cases command with
  | StartRun | PauseRun | ResumeRun =>
    simp only [change_lifecycle,modify_sim,returned,require_lifecycle_eq_ok] at ran
    obtain ⟨_,rfl,rfl⟩ := ran
    exact .managed rfl rfl
  | Advance steps =>
    simp only [advance,returned,require_lifecycle_eq_ok] at ran
    obtain ⟨_,_,_,_,delta,_,sum,_,_,catches,rfl,rfl⟩ := ran
    rw [to_u64_some sum,to_u64_some delta] at catches ⊢
    exact .advanced catches
  | ClockTick =>
    cases ran
    exact .managed rfl rfl
  | SetPacing mode reason =>
    simp only [set_pacing,validate_reason,record_admin,modify_sim,returned] at ran
    obtain ⟨_,rfl,rfl⟩ := ran
    exact .managed rfl rfl
  | Terminate reason =>
    simp only [terminate,validate_reason,record_admin,modify_sim,returned] at ran
    obtain ⟨_,_,rfl,rfl⟩ := ran
    exact .managed rfl rfl
  | SetListingHalt instrument halted reason =>
    simp only [set_listing_halt,validate_reason,record_admin,modify_sim,returned,require_instrument_eq_ok] at ran
    obtain ⟨_,_,rfl,rfl⟩ := ran
    exact .managed rfl rfl
  | PublishNews news_id audience headline body =>
    simp only [publish_news,modify_sim,returned] at ran
    obtain ⟨_,rfl,rfl⟩ := ran
    cases audience <;> exact .managed rfl rfl
  | OpenTender tender_id participant instrument side quantity price expires_at =>
    simp only [open_tender,require_participant,modify_sim,returned,require_instrument_eq_ok,not_or,not_le] at ran
    obtain ⟨_,_,⟨_,_,ahead,fresh⟩,rfl,rfl⟩ := ran
    exact .tender_opened ahead (OrdMap.contains_eq_false_iff.mp (by simpa using fresh))
  | DecideTender tender_id decision =>
    simp only [decide_tender,modify_sim,returned,not_or,not_not,not_le] at ran
    obtain ⟨tender,found,⟨owner,status,in_time⟩,_,_,settles,rfl,rfl⟩ := ran
    obtain ⟨ledger,rfl,decided⟩ := settle_tender_ok settles
    exact .tender_decided found owner status in_time decided
  | OpenOtc negotiation_id counterparty instrument side quantity price expires_at =>
    simp only [open_otc,require_participant,modify_sim,returned,require_instrument_eq_ok,not_or,not_le] at ran
    obtain ⟨_,_,_,⟨_,_,ahead,apart,fresh⟩,rfl,rfl⟩ := ran
    exact .otc_opened ahead (OrdMap.contains_eq_false_iff.mp (by simpa using fresh)) apart
  | CounterOtc negotiation_id quantity price =>
    simp only [counter_otc,modify_sim,returned,not_or,not_not,not_le,Bool.not_eq_false] at ran
    obtain ⟨_,found,⟨awaited,status,in_time,_⟩,rfl,rfl⟩ := ran
    exact .otc_countered found awaited.symm status in_time
  | DecideOtc negotiation_id decision =>
    simp only [decide_otc,modify_sim,returned,not_or,not_not,not_le,Bool.not_eq_false] at ran
    obtain ⟨otc,found,⟨_,awaited⟩,⟨status,in_time⟩,_,_,settles,rfl,rfl⟩ := ran
    obtain ⟨ledger,rfl,decided⟩ := settle_otc_ok settles
    exact .otc_decided found (awaited.imp Eq.symm fun broken => broken) status in_time decided
  | SubmitComposite | MassCancel => exact (throw_eq_ok.mp ran).elim
  | ScheduleCashflow participant currency amount effective_at reason =>
    simp only [schedule_cashflow,schedule,modify_sim,validate_reason,returned,next_action_eq_ok,not_or,not_le,
      List.any_eq_true,decide_eq_true_eq,not_exists,not_and] at ran
    obtain ⟨_,⟨_,ahead,fresh⟩,rfl,rfl⟩ := ran
    exact .cashflow_scheduled ⟨ahead,fresh⟩
  | ApplyFine participant currency amount reason =>
    simp only [apply_fine,validate_reason,require_participant,record_admin,modify_sim,returned] at ran
    obtain ⟨_,_,_,_,fits,_,posts,rfl,rfl⟩ := ran
    obtain ⟨ledger,inner,rfl⟩ := on_ledger_ok posts
    rw [to_i128_some fits,zero_sub] at inner
    exact .fined _ inner
  | ScheduleFacilityJob facility_id participant input_quantity output_quantity completes_at =>
    simp only [schedule_facility_job,schedule,modify_sim,returned,next_action_eq_ok,not_or,not_le,List.any_eq_true,
      decide_eq_true_eq,not_exists,not_and] at ran
    obtain ⟨_,at_facility,_,summed,⟨taken,given,fits,_⟩,⟨_,ahead,fresh⟩,rfl,rfl⟩ := ran
    exact .job_scheduled at_facility summed taken given fits ⟨ahead,fresh⟩
  | ScoreIteration =>
    simp only [score_iteration,modify_sim,returned] at ran
    obtain ⟨_,_,scores,_,_,_,_,rfl,rfl⟩ := ran
    obtain ⟨_,lifted,rfl⟩ := on_ledger_ok scores
    obtain ⟨_,rfl⟩ := lift_eq_ok.mp lifted
    exact .managed rfl rfl

end SimulationState

/-! ### What a command posts -/

theorem entries_of_quiet (silent : events.all SimulationEvent.quiet = true) (terms : OrdMap InstrumentId InstrumentTerms) :
    events.flatMap (SimulationEvent.entries terms base) = [] := by
  refine List.flatMap_eq_nil_iff.mpr fun event member => ?_
  have quiet := List.all_eq_true.mp silent event member
  cases event <;> first | rfl | cases quiet

/-- Booking an action under a new id keeps the scheduled work sound. -/
theorem SimSound.book {sim : SimulationState} {effective_at : Nat} {kind : ScheduledActionKind} (sound : SimSound setup sim)
    (settled : kind.unsettled = false) (bookable : sim.Bookable effective_at) :
    SimSound setup (sim.book effective_at kind) ∧ (sim.Upcoming → (sim.book effective_at kind).Upcoming) := by
  have sorted := List.perm_insertionSort ScheduledAction.before
    (sim.scheduled_actions ++ [⟨sim.next_action_id,effective_at,kind⟩])
  have members {action : ScheduledAction} (member : action ∈ (sim.book effective_at kind).scheduled_actions) :
      action ∈ sim.scheduled_actions ∨ action = ⟨sim.next_action_id,effective_at,kind⟩ := by
    simpa using sorted.mem_iff.mp member
  refine ⟨⟨sound.policy,List.pairwise_insertionSort _ _,?_,fun other member => ?_,sound.facilities,sound.jobs⟩,
    fun upcoming other member => ?_⟩
  · refine (sorted.map ScheduledAction.action_id).nodup_iff.mpr ?_
    rw [List.map_append,List.nodup_append]
    refine ⟨sound.distinct,by simp,fun id member other new same => ?_⟩
    obtain ⟨existing,there,rfl⟩ := List.mem_map.mp member
    exact bookable.2 existing there (same.trans (List.mem_singleton.mp new))
  · rcases members member with before | rfl
    · exact sound.settled other before
    · exact settled
  · rcases members member with before | rfl
    · exact upcoming other before
    · exact bookable.1

/-- The actions left once those due by a time are taken off a sorted list come later. -/
theorem upcoming_dropWhile {actions : List ScheduledAction} (sorted : actions.Pairwise ScheduledAction.before) (time : Nat) :
    ∀ action ∈ actions.dropWhile (fun action => action.effective_at ≤ time), time < action.effective_at := by
  induction sorted with
  | nil => simp
  | @cons first rest earlier _ ih =>
    by_cases due : first.effective_at ≤ time
    · rw [List.dropWhile_cons_of_pos (by simpa using due)]
      exact ih
    · rw [List.dropWhile_cons_of_neg (by simpa using due)]
      intro action member
      rcases List.mem_cons.mp member with rfl | behind
      · omega
      · rcases earlier action behind with later | ⟨same,_⟩ <;> omega

/-- A command that returns has posted the entries of its events. -/
theorem Does.posted {actor : ParticipantId} {time : Nat} {command : SimulationCommand}
    (sound : SimSound setup base) (standing : Standing setup base w) (does : Does context actor time w command events w') :
    Posted setup base command.moves (command.jump w.sim.clock.step_ns) w events w' := by
  have sim := standing.sound
  cases does with
  | managed own silent =>
    have still : command.jump w.sim.clock.step_ns = 0 := by cases command <;> first | rfl | cases own
    rw [still]
    refine ⟨by rw [entries_of_quiet silent]; exact .nil,sim.of_same ⟨rfl,rfl,rfl,rfl⟩,?_,fun _ => ?_,rfl,fun upcoming => upcoming⟩
    all_goals
      refine List.all_eq_true.mpr fun event member => ?_
      have quiet := List.all_eq_true.mp silent event member
      cases event <;> first | rfl | cases quiet
  | tender_opened | otc_opened | otc_countered =>
    exact ⟨.nil,sim.of_same ⟨rfl,rfl,rfl,rfl⟩,rfl,fun _ => rfl,rfl,fun upcoming => upcoming⟩
  | tender_decided _ _ _ _ decided =>
    cases decided with
    | declined => exact ⟨.nil,sim.of_same ⟨rfl,rfl,rfl,rfl⟩,rfl,fun _ => rfl,rfl,fun upcoming => upcoming⟩
    | accepted fill =>
      obtain ⟨T,known,posted⟩ := External.settle_tender standing.terms fill
      refine ⟨?_,sim.of_same ⟨rfl,rfl,rfl,rfl⟩,rfl,fun moved => (by cases moved),rfl,fun upcoming => upcoming⟩
      simpa [SimulationEvent.entries,known] using posted
  | otc_decided _ _ _ _ decided =>
    cases decided with
    | dropped => exact ⟨.nil,sim.of_same ⟨rfl,rfl,rfl,rfl⟩,rfl,fun _ => rfl,rfl,fun upcoming => upcoming⟩
    | accepted fill =>
      obtain ⟨T,known,posted⟩ := External.settle_otc standing.terms fill
      refine ⟨?_,sim.of_same ⟨rfl,rfl,rfl,rfl⟩,rfl,fun moved => (by cases moved),rfl,fun upcoming => upcoming⟩
      simpa [SimulationEvent.entries,known] using posted
  | fined _ posts =>
    have posted : External setup _ w.ledger _ := External.post_cash posts
    refine ⟨?_,sim.of_same ⟨rfl,rfl,rfl,rfl⟩,rfl,fun _ => rfl,rfl,fun upcoming => upcoming⟩
    simpa [SimulationEvent.entries] using posted
  | @cashflow_scheduled participant currency amount _ _ bookable =>
    have settled : (ScheduledActionKind.Cashflow participant currency amount).unsettled = false := rfl
    obtain ⟨sound,upcoming⟩ := sim.book settled bookable
    exact ⟨.nil,sound,rfl,fun _ => rfl,rfl,upcoming⟩
  | job_scheduled at_facility _ taken given _ bookable =>
    have settled : (ScheduledActionKind.CompleteFacilityJob w.sim.next_action_id).unsettled = false := rfl
    obtain ⟨sound,upcoming⟩ := sim.book settled bookable
    refine ⟨.nil,{ sound with jobs := fun found => ?_ },rfl,fun _ => rfl,rfl,upcoming⟩
    exact OrdMap.of_insert found ⟨taken,given,_,at_facility⟩ fun _ _ => sound.jobs
  | advanced catches =>
    obtain ⟨caught,clock⟩ := (SimulationState.catch_up_meets sound standing _ true).ok rfl catches
    have now := congrArg LogicalClock.now clock
    refine ⟨?_,caught.standing.sound,caught.own,fun still => (by cases still),now,fun _ => ?_⟩
    · rw [List.flatMap_cons,caught.entries]
      exact caught.posted
    · unfold SimulationState.Upcoming
      rw [caught.actions,now]
      exact upcoming_dropWhile sim.sorted _

end Commands

end Bunting
