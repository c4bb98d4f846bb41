import Bunting.Definitions
import Mathlib.Data.List.Sort

/-!
The simulation domain of a run: its clock, scheduled actions, tenders,
negotiations, facilities and committed market history. A command runs on the
simulation state and the ledger together and keeps what it wrote when it fails.
-/

namespace Bunting
open Stateful

def SIMULATION_POLICY_VERSION : Nat := 1
def MAX_TRADE_HISTORY : Nat := 4096
def MAX_NEWS_ITEMS : Nat := 4096
def MAX_SCHEDULED_ACTIONS : Nat := 8192

inductive SimulationError
  | InvalidScenario
  | InvalidLifecycle
  | InvalidCommand
  | LogicalTimeRegression
  | BoundExceeded
  | DuplicateIdentity
  | UnknownIdentity
  | NotOwner
  | ArithmeticOverflow
  | RequiresMatchingState
  | Unsupported
  | Ledger (error : LedgerError)
  deriving DecidableEq

/-- A capacity-constrained facility. -/
structure FacilityDefinition where
  facility_id : FacilityId
  capacity : Int
  input_instrument : Option InstrumentId
  output_instrument : Option InstrumentId
  deriving DecidableEq

/-- The run clock, apart from its pacing in wall time. -/
structure LogicalClock where
  now : Nat := 0
  step_ns : Nat := 1000000
  mode : ClockMode := .Lockstep
  deriving DecidableEq

inductive ScheduledActionKind
  | Cashflow (participant_id : ParticipantId) (currency_id : CurrencyId) (amount : Int)
  | ExpireInstrument (instrument_id : InstrumentId)
  | ExerciseOption (participant_id : ParticipantId) (instrument_id : InstrumentId) (quantity : Int)
  | Deliver (participant_id : ParticipantId) (instrument_id : InstrumentId) (quantity : Int)
  | CompleteFacilityJob (job_id : Nat)
  deriving DecidableEq

structure ScheduledAction where
  action_id : Nat
  effective_at : Nat
  kind : ScheduledActionKind
  deriving DecidableEq

/-- The order in which actions take effect. -/
def ScheduledAction.before (a b : ScheduledAction) : Prop :=
  a.effective_at < b.effective_at ∨ (a.effective_at = b.effective_at ∧ a.action_id ≤ b.action_id)

instance : DecidableRel ScheduledAction.before := fun _ _ => inferInstanceAs (Decidable (_ ∨ _))

structure NewsItem where
  news_id : NewsId
  published_at : Nat
  audience : NewsAudience
  headline : String
  body : String
  deriving DecidableEq

structure SimulationScenario where
  policy_version : Nat := SIMULATION_POLICY_VERSION
  clock : LogicalClock := {}
  facilities : OrdMap FacilityId FacilityDefinition := ∅
  scheduled_actions : List ScheduledAction := []
  initial_news : List NewsItem := []
  starts_active : Bool := true
  deriving DecidableEq

/-- An action without settled semantics. -/
def ScheduledActionKind.unsettled : ScheduledActionKind → Bool
  | .ExerciseOption .. | .Deliver .. => true
  | _ => false

namespace SimulationScenario

def valid_facility (entry : FacilityId × FacilityDefinition) : Bool :=
  entry.1 = entry.2.facility_id ∧ entry.1 ≠ 0 ∧ 0 < entry.2.capacity ∧
    (entry.2.input_instrument.isSome ∨ entry.2.output_instrument.isSome)

def validate (scenario : SimulationScenario) : Except SimulationError Unit := do
  refuse (scenario.policy_version ≠ SIMULATION_POLICY_VERSION ∨ scenario.clock.step_ns = 0 ∨
    scenario.scheduled_actions.length > MAX_SCHEDULED_ACTIONS ∨ scenario.initial_news.length > MAX_NEWS_ITEMS)
    SimulationError.InvalidScenario
  refuse (¬ scenario.facilities.entries.all valid_facility) SimulationError.InvalidScenario
  refuse (scenario.scheduled_actions.any (fun action => action.kind.unsettled)) SimulationError.Unsupported

/-- Instruments referenced by facilities and scheduled actions. -/
def referenced_instruments (scenario : SimulationScenario) : List InstrumentId :=
  scenario.facilities.values.flatMap (fun facility =>
    facility.input_instrument.toList ++ facility.output_instrument.toList) ++
  scenario.scheduled_actions.filterMap (fun action => match action.kind with
    | .ExpireInstrument instrument_id => some instrument_id
    | .ExerciseOption _ instrument_id _ => some instrument_id
    | .Deliver _ instrument_id _ => some instrument_id
    | .Cashflow .. | .CompleteFacilityJob _ => none)

end SimulationScenario

/-! ### Committed market history -/

structure TradeRecord where
  logical_time : Nat
  price : Int
  quantity : Int
  deriving DecidableEq

structure OhlcBar where
  bucket_start : Nat
  «open» : Int
  high : Int
  low : Int
  close : Int
  volume : Int
  deriving DecidableEq

structure MarketProjection where
  trades : List TradeRecord := []
  bars : List OhlcBar := []
  cumulative_volume : Int := 0
  deriving DecidableEq

/-- Bars are one second of run time wide. -/
def bucket (time : Nat) : Nat := time / 1000000000 * 1000000000

/-- A bounded history with one more entry; a full one loses its oldest. -/
def push_bounded {α : Type} (history : List α) (entry : α) : List α :=
  (if history.length = MAX_TRADE_HISTORY then history.tail else history) ++ [entry]

namespace MarketProjection

/-- The bar a trade falls into, if it is open. -/
def current_bar (view : MarketProjection) (trade : TradeRecord) : Option OhlcBar :=
  view.bars.getLast?.filter (fun bar => bar.bucket_start = bucket trade.logical_time)

def validate_trade (view : MarketProjection) (trade : TradeRecord) : Except SimulationError Unit := do
  let _ ← orElse (to_i64 (view.cumulative_volume + trade.quantity)) SimulationError.ArithmeticOverflow
  match view.current_bar trade with
  | none => pure ()
  | some bar => do
    let _ ← orElse (to_i64 (bar.volume + trade.quantity)) SimulationError.ArithmeticOverflow

def record_bar (view : MarketProjection) (trade : TradeRecord) : Except SimulationError (List OhlcBar) :=
  match view.current_bar trade with
  | some bar => do
    let volume ← orElse (to_i64 (bar.volume + trade.quantity)) SimulationError.ArithmeticOverflow
    pure (view.bars.dropLast ++
      [{ bar with high := max bar.high trade.price, low := min bar.low trade.price, close := trade.price, volume }])
  | none =>
    pure (push_bounded view.bars
      ⟨bucket trade.logical_time,trade.price,trade.price,trade.price,trade.price,trade.quantity⟩)

def record_trade (view : MarketProjection) (trade : TradeRecord) : Except SimulationError MarketProjection := do
  view.validate_trade trade
  let cumulative_volume ← orElse (to_i64 (view.cumulative_volume + trade.quantity)) SimulationError.ArithmeticOverflow
  let bars ← view.record_bar trade
  pure ⟨push_bounded view.trades trade,bars,cumulative_volume⟩

end MarketProjection

/-! ### The simulation state -/

structure TenderState where
  tender_id : TenderId
  participant_id : ParticipantId
  instrument_id : InstrumentId
  side : Side
  quantity : Int
  price : Int
  expires_at : Nat
  status : TenderStatus
  deriving DecidableEq

structure OtcState where
  negotiation_id : NegotiationId
  proposer_id : ParticipantId
  counterparty_id : ParticipantId
  instrument_id : InstrumentId
  side : Side
  quantity : Int
  price : Int
  expires_at : Nat
  status : OtcStatus
  awaiting : ParticipantId
  deriving DecidableEq

structure FacilityJob where
  job_id : Nat
  facility_id : FacilityId
  participant_id : ParticipantId
  input_quantity : Int
  output_quantity : Int
  completes_at : Nat
  completed : Bool
  deriving DecidableEq

structure ScoreEntry where
  participant_id : ParticipantId
  score : Int
  rank : Nat
  deriving DecidableEq

structure IterationReport where
  policy_version : Nat
  generated_at : Nat
  entries : List ScoreEntry
  deriving DecidableEq

structure AdministratorChange where
  actor : ParticipantId
  effective_at : Nat
  reason : String
  deriving DecidableEq

structure SimulationState where
  policy_version : Nat := SIMULATION_POLICY_VERSION
  lifecycle : RunLifecycle := .Stopped
  clock : LogicalClock := {}
  facilities : OrdMap FacilityId FacilityDefinition := ∅
  halted_instruments : OrdSet InstrumentId := ∅
  scheduled_actions : List ScheduledAction := []
  applied_actions : OrdSet Nat := ∅
  market : OrdMap InstrumentId MarketProjection := ∅
  market_by_listing : OrdMap ListingKey MarketProjection := ∅
  private_news : OrdMap ParticipantId (List NewsId) := ∅
  news : List NewsItem := []
  tenders : OrdMap TenderId TenderState := ∅
  otc : OrdMap NegotiationId OtcState := ∅
  facility_jobs : OrdMap Nat FacilityJob := ∅
  administrator_changes : List AdministratorChange := []
  reports : List IterationReport := []
  next_action_id : Nat := 1
  deriving DecidableEq

/-- An open tender past its expiry. -/
def TenderState.lapsed (time : Nat) (tender : TenderState) : Bool :=
  tender.status = .open ∧ tender.expires_at ≤ time

def TenderDecision.status : TenderDecision → TenderStatus
  | .Accept => .accepted
  | .Decline => .declined

/-- A negotiation in this status can still be answered. -/
def OtcStatus.negotiable : OtcStatus → Bool
  | .proposed | .countered => true
  | _ => false

/-- An open negotiation past its expiry. -/
def OtcState.lapsed (time : Nat) (otc : OtcState) : Bool := otc.status.negotiable ∧ otc.expires_at ≤ time

def OtcDecision.status : OtcDecision → OtcStatus
  | .Accept => .accepted
  | .Reject => .rejected
  | .Break => .broken

def OtcState.buyer (otc : OtcState) : ParticipantId :=
  match otc.side with
  | .Buy => otc.proposer_id
  | .Sell => otc.counterparty_id

def OtcState.seller (otc : OtcState) : ParticipantId :=
  match otc.side with
  | .Buy => otc.counterparty_id
  | .Sell => otc.proposer_id

/-- The steps one advance may take. -/
def ClockMode.step_limit : ClockMode → Nat
  | .Lockstep | .Paced _ => 1
  | .Accelerated max_steps => max max_steps 1

/-- Highest score first, ties by participant. -/
def outranks (a b : ParticipantId × Int) : Prop := a.2 > b.2 ∨ (a.2 = b.2 ∧ a.1 ≤ b.1)

instance : DecidableRel outranks := fun _ _ => inferInstanceAs (Decidable (_ ∨ _))

/-- The scores in order with their ranks from one. -/
def ranked (scores : List (ParticipantId × Int)) : Option (List ScoreEntry) :=
  (scores.insertionSort outranks).zipIdx.mapM (fun e => (to_u32 (e.2 + 1)).map (fun rank => ⟨e.1.1,e.1.2,rank⟩))

/-- The next number of a 128-bit counter that stays at its maximum. -/
def saturating_succ (n : Nat) : Nat := min (n + 1) 340282366920938463463374607431768211455

/-- Creates the run's simulation state from its scenario. -/
def SimulationState.from_scenario (scenario : SimulationScenario) : Except SimulationError SimulationState := do
  scenario.validate
  refuse (¬ (scenario.scheduled_actions.map ScheduledAction.action_id).Nodup) SimulationError.DuplicateIdentity
  pure {
    lifecycle := if scenario.starts_active then .Active else .Stopped
    clock := scenario.clock
    facilities := scenario.facilities
    news := scenario.initial_news
    scheduled_actions := scenario.scheduled_actions.insertionSort ScheduledAction.before
    next_action_id := scenario.scheduled_actions.foldl (fun next action =>
      max next (saturating_succ action.action_id)) 1 }

/-- What a simulation command reads of the run. -/
structure SimulationContext where
  participants : OrdMap ParticipantId ParticipantDefinition
  reporting_currency : CurrencyId
  fx_rates : List FxRate

/-- The side of a fill of an enrolled participant without an order or a fee. -/
def SimulationContext.party (context : SimulationContext) (participant : ParticipantId) : FillParty :=
  ⟨participant,0,none,funded context.participants participant⟩

/-- The fill of an accepted tender; the other side is the house. -/
def TenderState.fill (context : SimulationContext) (tender : TenderState) : Fill :=
  let party := context.party tender.participant_id
  match tender.side with
  | .Buy => ⟨tender.instrument_id,tender.price,tender.quantity,some party,none,false⟩
  | .Sell => ⟨tender.instrument_id,tender.price,tender.quantity,none,some party,false⟩

/-- The state a simulation command changes. -/
structure World where
  sim : SimulationState
  ledger : Ledger

abbrev Simulating := EStateM SimulationError World

def on_ledger {α : Type} (m : EStateM LedgerError Ledger α) : Simulating α :=
  zoom World.ledger (fun ledger world => { world with ledger }) SimulationError.Ledger m

def modify_sim (f : SimulationState → SimulationState) : Simulating Unit :=
  modify (fun world => { world with sim := f world.sim })

namespace SimulationState

def require_instrument (instrument : InstrumentId) : Simulating Unit := do
  let world ← get
  let _ ← orElse (world.ledger.terms.get? instrument) SimulationError.UnknownIdentity

def require_participant (context : SimulationContext) (participant : ParticipantId) : Simulating Unit :=
  refuse (context.participants.contains participant = false) SimulationError.UnknownIdentity

def require_lifecycle (required : RunLifecycle) : Simulating Unit := do
  let world ← get
  refuse (world.sim.lifecycle ≠ required) SimulationError.InvalidLifecycle

def validate_reason (reason : String) : Simulating Unit :=
  refuse (reason.isEmpty ∨ reason.utf8ByteSize > 1024) SimulationError.InvalidCommand

def record_admin (actor : ParticipantId) (time : Nat) (reason : String) : Simulating Unit :=
  modify_sim (fun sim => { sim with administrator_changes := sim.administrator_changes ++ [⟨actor,time,reason⟩] })

/-- Moves the lifecycle on from one stage. -/
def change_lifecycle (required status : RunLifecycle) : Simulating (List SimulationEvent) := do
  require_lifecycle required
  modify_sim (fun sim => { sim with lifecycle := status })
  pure [.LifecycleChanged status]

/-- Whether a scheduled action is due at or before a time. -/
def has_due_actions (sim : SimulationState) (time : Nat) : Bool :=
  sim.scheduled_actions.head?.any (fun action => action.effective_at ≤ time)

/-! ### Scheduled actions -/

def next_action : Simulating Nat := do
  let world ← get
  modify_sim (fun sim => { sim with next_action_id := saturating_succ sim.next_action_id })
  pure world.sim.next_action_id

def schedule (action : ScheduledAction) : Simulating Unit := do
  let world ← get
  refuse (world.sim.scheduled_actions.length ≥ MAX_SCHEDULED_ACTIONS ∨ action.effective_at ≤ world.sim.clock.now ∨
    world.sim.scheduled_actions.any (fun existing => existing.action_id = action.action_id))
    SimulationError.BoundExceeded
  modify_sim (fun sim =>
    { sim with scheduled_actions := (sim.scheduled_actions ++ [action]).insertionSort ScheduledAction.before })

/-- Converts the input of a facility job into its output. -/
def complete_facility_job (job_id : Nat) : Simulating Unit := do
  let world ← get
  let job ← orElse (world.sim.facility_jobs.get? job_id) SimulationError.UnknownIdentity
  let facility ← orElse (world.sim.facilities.get? job.facility_id) SimulationError.UnknownIdentity
  on_ledger (Ledger.convert job.participant_id (facility.input_instrument.map (fun i => (i,job.input_quantity)))
    (facility.output_instrument.map (fun i => (i,job.output_quantity))))
  modify_sim (fun sim => { sim with facility_jobs := sim.facility_jobs.insert job_id { job with completed := true } })

def apply_scheduled (action : ScheduledAction) : Simulating Unit :=
  match action.kind with
  | .Cashflow participant_id currency_id amount => on_ledger (Ledger.post_cash participant_id currency_id amount)
  | .CompleteFacilityJob job_id => complete_facility_job job_id
  | .ExpireInstrument instrument_id =>
    modify_sim (fun sim => { sim with halted_instruments := sim.halted_instruments.insert instrument_id () })
  | .ExerciseOption .. | .Deliver .. => throw SimulationError.Unsupported

/-- Applies one action that is due and records it. -/
def apply_one (action : ScheduledAction) : Simulating Unit := do
  apply_scheduled action
  modify_sim (fun sim => { sim with applied_actions := sim.applied_actions.insert action.action_id () })

/-- The actions due by a time. The list is sorted, so they are its first ones. -/
def due (sim : SimulationState) (time : Nat) : List ScheduledAction :=
  sim.scheduled_actions.takeWhile (fun action => action.effective_at ≤ time)

def apply_due (time : Nat) : Simulating (List SimulationEvent) := do
  let world ← get
  let actions := world.sim.due time
  modify_sim (fun sim => { sim with
    scheduled_actions := sim.scheduled_actions.dropWhile (fun action => action.effective_at ≤ time) })
  forM actions apply_one
  pure (actions.map (fun action => .ScheduledActionApplied action.action_id))

/-! ### Expiries -/

/-- Marks the open tenders and negotiations past their expiry as expired. -/
def sweep_expired (time : Nat) : Simulating (List SimulationEvent) := do
  let world ← get
  modify_sim (fun sim => { sim with
    tenders := sim.tenders.mapValues (fun _ tender =>
      if tender.lapsed time then { tender with status := .expired } else tender)
    otc := sim.otc.mapValues (fun _ otc => if otc.lapsed time then { otc with status := .expired } else otc) })
  pure ((world.sim.tenders.values.filter (TenderState.lapsed time)).map (fun tender =>
      .TenderChanged tender.tender_id .expired) ++
    (world.sim.otc.values.filter (OtcState.lapsed time)).map (fun otc => .OtcChanged otc.negotiation_id .expired))

/-- Moves the run clock and applies every scheduled action due by then; with
    `sweep`, tenders and negotiations expire too. -/
def catch_up (time : Nat) (sweep : Bool) : Simulating (List SimulationEvent) := do
  let world ← get
  refuse (time < world.sim.clock.now) SimulationError.LogicalTimeRegression
  modify_sim (fun sim => { sim with clock := { sim.clock with now := time } })
  let applied ← apply_due time
  let expired ← (if sweep then sweep_expired time else pure [] : Simulating (List SimulationEvent))
  pure (applied ++ expired)

def advance (steps : Nat) : Simulating (List SimulationEvent) := do
  require_lifecycle .Active
  refuse (steps = 0) SimulationError.InvalidCommand
  let world ← get
  refuse (steps > world.sim.clock.mode.step_limit) SimulationError.BoundExceeded
  let before := world.sim.clock.now
  let delta ← orElse (to_u64 (world.sim.clock.step_ns * steps)) SimulationError.ArithmeticOverflow
  let after ← orElse (to_u64 (before + delta)) SimulationError.ArithmeticOverflow
  let events ← catch_up after true
  pure (.ClockAdvanced before after :: events)

/-! ### Administration -/

def set_pacing (actor : ParticipantId) (time : Nat) (mode : ClockMode) (reason : String) :
    Simulating (List SimulationEvent) := do
  validate_reason reason
  modify_sim (fun sim => { sim with clock := { sim.clock with mode } })
  record_admin actor time reason
  pure [.PacingChanged mode reason,.AdministratorChangeRecorded reason]

def terminate (actor : ParticipantId) (time : Nat) (reason : String) : Simulating (List SimulationEvent) := do
  validate_reason reason
  let world ← get
  refuse (world.sim.lifecycle = .Terminated) SimulationError.InvalidLifecycle
  modify_sim (fun sim => { sim with lifecycle := .Terminated })
  record_admin actor time reason
  pure [.LifecycleChanged .Terminated,.AdministratorChangeRecorded reason]

def set_listing_halt (actor : ParticipantId) (time : Nat) (instrument : InstrumentId) (halted : Bool)
    (reason : String) : Simulating (List SimulationEvent) := do
  validate_reason reason
  require_instrument instrument
  modify_sim (fun sim => { sim with
    halted_instruments :=
      if halted then sim.halted_instruments.insert instrument () else sim.halted_instruments.erase instrument })
  record_admin actor time reason
  pure [.ListingHaltChanged instrument halted,.AdministratorChangeRecorded reason]

/-- News to one participant is kept for it; other audiences read the run's news. -/
def route_news (news_id : NewsId) (audience : NewsAudience) (sim : SimulationState) : SimulationState :=
  match audience with
  | .Participant participant =>
    let kept := (sim.private_news.get? participant).getD []
    { sim with private_news := sim.private_news.insert participant (kept ++ [news_id]) }
  | .Public | .Team _ | .Role _ => sim

def publish_news (time : Nat) (news_id : NewsId) (audience : NewsAudience) (headline body : String) :
    Simulating (List SimulationEvent) := do
  let world ← get
  refuse (world.sim.news.length ≥ MAX_NEWS_ITEMS ∨ headline.isEmpty ∨ headline.utf8ByteSize > 256 ∨
    body.utf8ByteSize > 16384 ∨ world.sim.news.any (fun news => news.news_id = news_id)) SimulationError.BoundExceeded
  modify_sim (fun sim =>
    route_news news_id audience { sim with news := sim.news ++ [⟨news_id,time,audience,headline,body⟩] })
  pure [.NewsPublished news_id audience]

/-! ### Tenders and negotiations -/

def open_tender (context : SimulationContext) (time : Nat) (tender_id : TenderId) (participant : ParticipantId)
    (instrument : InstrumentId) (side : Side) (quantity price : Int) (expires_at : Nat) :
    Simulating (List SimulationEvent) := do
  require_instrument instrument
  require_participant context participant
  let world ← get
  refuse (quantity ≤ 0 ∨ price ≤ 0 ∨ expires_at ≤ time ∨ world.sim.tenders.contains tender_id)
    SimulationError.InvalidCommand
  modify_sim (fun sim => { sim with
    tenders := sim.tenders.insert tender_id
      ⟨tender_id,participant,instrument,side,quantity,price,expires_at,.open⟩ })
  pure [.TenderChanged tender_id .open]

def settle_tender (context : SimulationContext) (tender_id : TenderId) (tender : TenderState) :
    TenderDecision → Simulating (List SimulationEvent)
  | .Accept => do
    on_ledger (Ledger.settle (tender.fill context))
    pure [.TenderSettled tender_id tender.participant_id tender.instrument_id tender.side tender.quantity tender.price]
  | .Decline => pure []

def decide_tender (context : SimulationContext) (actor : ParticipantId) (time : Nat) (tender_id : TenderId)
    (decision : TenderDecision) : Simulating (List SimulationEvent) := do
  let world ← get
  let tender ← orElse (world.sim.tenders.get? tender_id) SimulationError.UnknownIdentity
  refuse (tender.participant_id ≠ actor ∨ tender.status ≠ .open ∨ tender.expires_at ≤ time)
    SimulationError.InvalidLifecycle
  let events ← settle_tender context tender_id tender decision
  let status := decision.status
  modify_sim (fun sim => { sim with tenders := sim.tenders.insert tender_id { tender with status } })
  pure (.TenderChanged tender_id status :: events)

def open_otc (context : SimulationContext) (actor : ParticipantId) (time : Nat) (negotiation_id : NegotiationId)
    (counterparty : ParticipantId) (instrument : InstrumentId) (side : Side) (quantity price : Int)
    (expires_at : Nat) : Simulating (List SimulationEvent) := do
  require_instrument instrument
  require_participant context actor
  require_participant context counterparty
  let world ← get
  refuse (quantity ≤ 0 ∨ price ≤ 0 ∨ expires_at ≤ time ∨ counterparty = actor ∨ world.sim.otc.contains negotiation_id)
    SimulationError.InvalidCommand
  modify_sim (fun sim => { sim with
    otc := sim.otc.insert negotiation_id
      ⟨negotiation_id,actor,counterparty,instrument,side,quantity,price,expires_at,.proposed,counterparty⟩ })
  pure [.OtcChanged negotiation_id .proposed]

def counter_otc (actor : ParticipantId) (time : Nat) (negotiation_id : NegotiationId) (quantity price : Int) :
    Simulating (List SimulationEvent) := do
  let world ← get
  let otc ← orElse (world.sim.otc.get? negotiation_id) SimulationError.UnknownIdentity
  refuse (actor ≠ otc.awaiting ∨ otc.status.negotiable = false ∨ otc.expires_at ≤ time ∨ quantity ≤ 0 ∨ price ≤ 0)
    SimulationError.InvalidLifecycle
  let awaiting := if actor = otc.proposer_id then otc.counterparty_id else otc.proposer_id
  modify_sim (fun sim => { sim with
    otc := sim.otc.insert negotiation_id { otc with quantity, price, status := .countered, awaiting } })
  pure [.OtcChanged negotiation_id .countered]

def settle_otc (context : SimulationContext) (negotiation_id : NegotiationId) (otc : OtcState) :
    OtcDecision → Simulating (List SimulationEvent)
  | .Accept => do
    on_ledger (Ledger.settle ⟨otc.instrument_id,otc.price,otc.quantity,some (context.party otc.buyer),
      some (context.party otc.seller),false⟩)
    pure [.OtcSettled negotiation_id otc.buyer otc.seller otc.instrument_id otc.quantity otc.price]
  | .Reject | .Break => pure []

def decide_otc (context : SimulationContext) (actor : ParticipantId) (time : Nat) (negotiation_id : NegotiationId)
    (decision : OtcDecision) : Simulating (List SimulationEvent) := do
  let world ← get
  let otc ← orElse (world.sim.otc.get? negotiation_id) SimulationError.UnknownIdentity
  refuse (¬ ((actor = otc.proposer_id ∨ actor = otc.counterparty_id) ∧ (actor = otc.awaiting ∨ decision = .Break)))
    SimulationError.NotOwner
  refuse (otc.status.negotiable = false ∨ otc.expires_at ≤ time) SimulationError.InvalidLifecycle
  let events ← settle_otc context negotiation_id otc decision
  let status := decision.status
  modify_sim (fun sim => { sim with otc := sim.otc.insert negotiation_id { otc with status } })
  pure (.OtcChanged negotiation_id status :: events)

/-! ### Cashflows, fines and facility jobs -/

def schedule_cashflow (participant : ParticipantId) (currency : CurrencyId) (amount : Int) (effective_at : Nat)
    (reason : String) : Simulating (List SimulationEvent) := do
  validate_reason reason
  let action_id ← next_action
  schedule ⟨action_id,effective_at,.Cashflow participant currency amount⟩
  pure [.CashflowScheduled participant currency amount]

def apply_fine (context : SimulationContext) (actor : ParticipantId) (time : Nat) (participant : ParticipantId)
    (currency : CurrencyId) (amount : Int) (reason : String) : Simulating (List SimulationEvent) := do
  validate_reason reason
  refuse (amount ≤ 0) SimulationError.InvalidCommand
  require_participant context participant
  let debit ← orElse (to_i128 (0 - amount)) SimulationError.ArithmeticOverflow
  on_ledger (Ledger.post_cash participant currency debit)
  record_admin actor time reason
  pure [.FineApplied participant currency amount SIMULATION_POLICY_VERSION,.AdministratorChangeRecorded reason]

/-- The capacity of a facility that jobs still to complete hold. -/
def reserved_capacity (sim : SimulationState) (facility : FacilityId) : Option Int :=
  (sim.facility_jobs.values.filter (fun job => job.facility_id = facility ∧ job.completed = false)).foldlM
    (fun total job => to_i64 (total + job.input_quantity)) 0

def schedule_facility_job (time : Nat) (facility_id : FacilityId) (participant : ParticipantId)
    (input_quantity output_quantity : Int) (completes_at : Nat) : Simulating (List SimulationEvent) := do
  let world ← get
  let facility ← orElse (world.sim.facilities.get? facility_id) SimulationError.UnknownIdentity
  let reserved ← orElse (world.sim.reserved_capacity facility_id) SimulationError.ArithmeticOverflow
  refuse (input_quantity ≤ 0 ∨ output_quantity ≤ 0 ∨
    (to_i64 (reserved + input_quantity)).all (fun total => total > facility.capacity) ∨ completes_at ≤ time)
    SimulationError.InvalidCommand
  let job_id ← next_action
  modify_sim (fun sim => { sim with
    facility_jobs := sim.facility_jobs.insert job_id
      ⟨job_id,facility_id,participant,input_quantity,output_quantity,completes_at,false⟩ })
  schedule ⟨job_id,completes_at,.CompleteFacilityJob job_id⟩
  pure [.FacilityJobScheduled facility_id participant]

/-! ### Scores -/

/-- Freezes one ranking of every enrolled participant at the committed marks. -/
def score_iteration (context : SimulationContext) : Simulating (List SimulationEvent) := do
  let world ← get
  let scores ← on_ledger (liftM (context.participants.keys.mapM (fun participant =>
    (participant,·) <$> world.ledger.reporting_value participant context.reporting_currency context.fx_rates)))
  let entries ← orElse (ranked scores) SimulationError.BoundExceeded
  let count ← orElse (to_u32 entries.length) SimulationError.BoundExceeded
  modify_sim (fun sim => { sim with
    reports := sim.reports ++ [⟨SIMULATION_POLICY_VERSION,sim.clock.now,entries⟩] })
  pure [.IterationScored count]

/-! ### Commands -/

def apply (context : SimulationContext) (actor : ParticipantId) (time : Nat) (command : SimulationCommand) :
    Simulating (List SimulationEvent) := do
  let world ← get
  refuse (time < world.sim.clock.now) SimulationError.LogicalTimeRegression
  match command with
  | .StartRun => change_lifecycle .Stopped .Active
  | .PauseRun => change_lifecycle .Active .Paused
  | .ResumeRun => change_lifecycle .Paused .Active
  | .Advance steps => advance steps
  | .ClockTick => pure []
  | .SetPacing mode reason => set_pacing actor time mode reason
  | .Terminate reason => terminate actor time reason
  | .SetListingHalt instrument halted reason => set_listing_halt actor time instrument halted reason
  | .PublishNews news_id audience headline body => publish_news time news_id audience headline body
  | .OpenTender tender_id participant instrument side quantity price expires_at =>
    open_tender context time tender_id participant instrument side quantity price expires_at
  | .DecideTender tender_id decision => decide_tender context actor time tender_id decision
  | .OpenOtc negotiation_id counterparty instrument side quantity price expires_at =>
    open_otc context actor time negotiation_id counterparty instrument side quantity price expires_at
  | .CounterOtc negotiation_id quantity price => counter_otc actor time negotiation_id quantity price
  | .DecideOtc negotiation_id decision => decide_otc context actor time negotiation_id decision
  | .SubmitComposite .. => throw SimulationError.Unsupported
  | .ScheduleCashflow participant currency amount effective_at reason =>
    schedule_cashflow participant currency amount effective_at reason
  | .ApplyFine participant currency amount reason => apply_fine context actor time participant currency amount reason
  | .ScheduleFacilityJob facility_id participant input_quantity output_quantity completes_at =>
    schedule_facility_job time facility_id participant input_quantity output_quantity completes_at
  | .ScoreIteration => score_iteration context
  | .MassCancel .. => throw SimulationError.RequiresMatchingState

/-- The history of a trade's listing with the trade. -/
def project_listing (views : OrdMap ListingKey MarketProjection) (trade : TradeRecord) (listing_key : Option ListingKey) :
    Except SimulationError (OrdMap ListingKey MarketProjection) :=
  match listing_key with
  | none => pure views
  | some listing => do
    let view ← ((views.get? listing).getD {}).record_trade trade
    pure (views.insert listing view)

/-- Projects one committed event into the market history. Both volumes are
    checked before either history moves. -/
def project_event (sim : SimulationState) (time : Nat) (event : EventPayload) :
    Except SimulationError SimulationState :=
  match event with
  | .TradeExecuted instrument_id listing_key _ _ _ _ price quantity _ _ => do
    let trade : TradeRecord := ⟨time,price,quantity⟩
    refuse (listing_key.any (fun listing => listing.instrument_id ≠ instrument_id)) SimulationError.UnknownIdentity
    let listed := listing_key.bind sim.market_by_listing.get?
    listed.elim (pure ()) (fun view => view.validate_trade trade)
    (sim.market.get? instrument_id).elim (pure ()) (fun view => view.validate_trade trade)
    let view ← ((sim.market.get? instrument_id).getD {}).record_trade trade
    let listings ← project_listing sim.market_by_listing trade listing_key
    let market := sim.market.insert instrument_id view
    pure { sim with market, market_by_listing := listings }
  | _ => pure sim

end SimulationState

end Bunting
