import Bunting.Conservation
import Bunting.Traces

/-!
What order flow does to the accounts. An order is admitted against the worst
case of all open orders of its account, so the worst case never leaves the
limit. What it pays is reserved before, and what it sells for is worth its fee
where fees are low.
-/

namespace Bunting
open Stateful

/-! ### Steps of the order flow -/

/-- What a step of the order flow did: it posted what was due, and nothing else from outside. -/
structure Flowed (s : RunState) (time : Nat) (F : Frame) (t : Transition) : Prop where
  stage : Stage s time False False F
  inv : Inv F t
  below : Below s.simulation F.simulation
  posting : F.posting = (s.simulation.due time).map (fun action => .ScheduledActionApplied action.action_id)

section Flow
variable {s s' : RunState} {input : Input} {applied : Applied} {F : Frame} {t : Transition} {time : Nat}
  {allowed : SimulationEvent → Prop} {action : ScheduledAction}

theorem Input.flowed (sane : Sane s) (flow : input.order_flow = true) (ran : input.step.run s = .ok applied s') :
    ∃ F t, Flowed s input.logical_time F t ∧ ∃ market market_by_listing,
      s' = .committed t (s.sequence + 1) market market_by_listing := by
  obtain ⟨F,caught,t,halves⟩ := Input.halves sane ran
  have ready := halves.ready
  cases halves.goes with
  | kept _ kept =>
    obtain ⟨mode,_,inv⟩ := kept
    exact ⟨_,t,⟨ready.stage.taking mode,inv,ready.caught.below,ready.caught.posting⟩,halves.commits⟩
  | ran _ staged =>
    rw [Input.order_flow,staged] at flow
    cases flow

/-- What every move keeps, where the scheduled actions due are of a kind, holds after a step of the order flow. -/
theorem Flowed.keeps {P : Transition → Prop} (flowed : Flowed s time F t) (sane : Sane s)
    (due : ∀ action ∈ s.simulation.due time, allowed (.ScheduledActionApplied action.action_id)) (starts : P { run := s })
    (step : ∀ {c d}, Move s.setup s.simulation time c d → Lawful s.setup c.2.run → PostsOnly allowed d.2 → P c.2 → P d.2) :
    P t := by
  have moves := flowed.inv.moves
  rw [flowed.stage.setup,flowed.stage.base,flowed.stage.now,flowed.stage.start] at moves
  have posts : PostsOnly allowed t := by
    intro event member
    rw [flowed.inv.emitted.posting,flowed.posting] at member
    obtain ⟨action,inside,rfl⟩ := List.mem_map.mp member
    exact due action inside
  exact (moves.keeps sane.valid ⟨rfl,fun _ _ found live => (sane.inv 0).records.admitted found live⟩ posts starts step).2

/-- No work but that of the scenario: its scheduled actions, and no facility jobs. -/
structure Plain (scenario : ScenarioDefinition) (sim : SimulationState) : Prop where
  actions : ∀ action ∈ sim.scheduled_actions, action ∈ scenario.simulation.scheduled_actions
  jobs : ∀ id, sim.facility_jobs.get? id = none

variable {scenario : ScenarioDefinition}

theorem Opened.plain {start : RunState} (opened : Opened scenario start) :
    Plain scenario start.simulation := by
  have starts := opened.simulation
  simp only [SimulationState.from_scenario,returned] at starts
  obtain ⟨_,_,same⟩ := starts
  rw [← same]
  exact ⟨fun action member => (List.perm_insertionSort _ _).mem_iff.mp member,fun _ => rfl⟩

theorem Flowed.plain (flowed : Flowed s time F t) (plain : Plain scenario s.simulation)
    (next : Nat) (market : OrdMap InstrumentId MarketProjection) (market_by_listing : OrdMap ListingKey MarketProjection) :
    Plain scenario (RunState.committed t next market market_by_listing).simulation := by
  obtain ⟨_,_,_,same,_⟩ := RunState.committed_eq t next market market_by_listing
  rw [same]
  simp only [flowed.inv.simulation]
  refine ⟨fun action member => plain.actions action (flowed.below.actions action member),fun id => ?_⟩
  have jobs := flowed.below.jobs id
  rw [plain.jobs id] at jobs
  simpa using jobs

/-- Without facility jobs the scheduled actions post cash only. -/
theorem Plain.entries {sim : SimulationState} (plain : Plain scenario sim)
    (terms : OrdMap InstrumentId InstrumentTerms) {e : Entry}
    (member : e ∈ sim.entries terms action) :
    ∃ participant currency amount, action.kind = .Cashflow participant currency amount ∧
      e = ⟨participant,currency,0,{ balance := amount },{}⟩ := by
  unfold SimulationState.entries at member
  cases kind : action.kind with
  | Cashflow participant currency amount =>
    rw [kind] at member
    exact ⟨participant,currency,amount,rfl,List.mem_singleton.mp member⟩
  | CompleteFacilityJob job_id =>
    simp [kind,SimulationState.job_entries,plain.jobs] at member
  | ExpireInstrument _ | ExerciseOption _ _ _ | Deliver _ _ _ => simp [kind] at member

/-- The entries of a simulation program are those of the events it posts. -/
theorem PostsOnly.entries {w : World} {events : List SimulationEvent}
    (posts : PostsOnly allowed (t.simulated w events)) (terms : OrdMap InstrumentId InstrumentTerms) (base : SimulationState)
    {e : Entry} (member : e ∈ events.flatMap (SimulationEvent.entries terms base)) :
    ∃ event, allowed event ∧ e ∈ event.entries terms base := by
  rw [← posting_entries] at member
  obtain ⟨event,inside,here⟩ := List.mem_flatMap.mp member
  obtain ⟨told,silent⟩ := List.mem_filter.mp inside
  refine ⟨event,posts event (List.mem_filterMap.mpr ⟨.Simulation event,?_,by simp [EventPayload.posting,silent]⟩),here⟩
  exact List.mem_append_right _ (List.mem_map.mpr ⟨event,told,rfl⟩)

theorem due_entries_of {setup : Setup} (sound : SimSound setup s.simulation)
    (member : action ∈ s.simulation.due time) (terms : OrdMap InstrumentId InstrumentTerms) :
    (SimulationEvent.ScheduledActionApplied action.action_id).entries terms s.simulation = s.simulation.entries terms action := by
  have scheduled : action ∈ s.simulation.scheduled_actions := (List.takeWhile_prefix _).subset member
  simp only [SimulationEvent.entries,sound.action scheduled,Option.elim_some]

/-- What every move keeps of the accounts, where the cashflows of the scenario are of a kind, the order flow keeps. -/
theorem ReachableWhere.accounts_keep {Q : Setup → Ledger → Prop} {R : Setup → Entry → Prop}
    (reachable : ReachableWhere (fun _ input => input.order_flow = true) scenario s)
    (opens : ∀ start, Opened scenario start → Q start.setup start.ledger)
    (cashflows : ∀ s, Reachable scenario s → ∀ action ∈ scenario.simulation.scheduled_actions, ∀ p c amount,
      action.kind = .Cashflow p c amount → R s.setup ⟨p,c,0,{ balance := amount },{}⟩)
    (step : ∀ {s now c d}, Reachable scenario s → Move s.setup s.simulation now c d → Lawful s.setup c.2.run →
      PostsOnly (fun event => ∀ e ∈ event.entries s.setup.terms s.simulation, R s.setup e) d.2 →
      Q s.setup c.2.run.ledger → Q s.setup d.2.run.ledger) : Q s.setup s.ledger := by
  refine And.right (reachable.keeps (P := fun s => Plain scenario s.simulation ∧ Q s.setup s.ledger)
    (fun start opened => ⟨opened.plain,opens start opened⟩) ?_)
  rintro s s' input applied before ⟨plain,holds⟩ flow ran
  have sane := before.sane
  obtain ⟨_,stepped⟩ := Input.stepped sane ran
  have setup := stepped.setup
  obtain ⟨F,t,flowed,market,market_by_listing,same⟩ := Input.flowed sane flow ran
  subst same
  refine ⟨flowed.plain plain _ _ _,?_⟩
  have due (action : ScheduledAction) (member : action ∈ s.simulation.due input.logical_time) :
      ∀ e ∈ SimulationEvent.entries s.setup.terms s.simulation (.ScheduledActionApplied action.action_id),
        R s.setup e := by
    intro e inside
    rw [due_entries_of sane.sound member] at inside
    obtain ⟨p,c,amount,kind,rfl⟩ := plain.entries _ inside
    exact cashflows s before action (plain.actions action ((List.takeWhile_prefix _).subset member)) p c amount kind
  have kept := flowed.keeps (P := fun t => Q s.setup t.run.ledger) sane due holds
    fun move lawful posts holds => step before move lawful posts holds
  obtain ⟨_,_,_,same,_⟩ := RunState.committed_eq t (s.sequence + 1) market market_by_listing
  rw [setup,same]
  exact kept

end Flow

/-! ### Positions -/

/-- Once all open buys, or all open sells, of an account fill, its position is within the limit. -/
def Exposed (setup : Setup) (ledger : Ledger) : Prop :=
  ∀ p P i, setup.participants.get? p = some P →
    (ledger.position_of p i).quantity + (ledger.position_of p i).open_buy ≤ P.limits.max_absolute_position ∧
    -P.limits.max_absolute_position ≤ (ledger.position_of p i).quantity - (ledger.position_of p i).open_sell

variable {instrument : InstrumentId} {order : Reservation} {participant : ParticipantId} {quantity : Int}

section Positions
variable {setup : Setup} {ledger ledger' : Ledger} {e : Entry} {base : SimulationState} {now : Nat} {a b : Mode × Transition}

section
variable (exposed : Exposed setup ledger) {x : Unit}
include exposed

/-- An entry that adds neither to the long nor to the short worst case. -/
theorem Exposed.post (posts : Ledger.Posts e ledger ledger')
    (long : e.lots.quantity + e.lots.open_buy ≤ 0) (short : 0 ≤ e.lots.quantity - e.lots.open_sell) :
    Exposed setup ledger' := by
  intro p P i enrolled
  obtain ⟨above,below⟩ := exposed p P i enrolled
  rw [posts.quantity,posts.open_buy,posts.open_sell]
  split_ifs <;> omega

theorem Exposed.post_all {es : List Entry} (posts : Ledger.PostsAll es ledger ledger')
    (cash_only : ∀ e ∈ es, e.lots = {}) : Exposed setup ledger' := by
  induction posts with
  | nil => exact exposed
  | cons first rest ih =>
    have none := cash_only _ List.mem_cons_self
    exact ih (exposed.post first (by rw [none]; simp) (by rw [none]; simp)) fun e member =>
      cash_only e (List.mem_cons_of_mem _ member)

theorem Exposed.close {side : Side} (ran : (Ledger.close_order participant instrument side quantity order).run ledger = .ok x ledger') :
    Exposed setup ledger' := by
  obtain ⟨T,_,positive,_,posts⟩ := Ledger.change_open_posts ran
  refine exposed.post posts ?_ ?_ <;> cases side <;> simp [Entry.opening,Ledger.moved] <;> omega

theorem Exposed.leg {T : InstrumentTerms} {value : Int} {fill : Fill} {side : Side} {party : FillParty}
    (leg : Ledger.Leg T value fill side (some party) ledger ledger')
    (ordered : party.order = some order) (positive : 0 < fill.quantity) : Exposed setup ledger' := by
  obtain ⟨posts,_⟩ := Ledger.leg_posts leg positive
  refine exposed.post posts ?_ ?_ <;> cases side <;> simp [Entry.leg,Entry.opening,ordered] <;> omega

theorem Exposed.settle {ownership : OrdMap OrderId OwnedOrder} {key : ListingKey} {buy sell : OrderId}
    {buyer seller : OwnedOrder} {price buy_fee sell_fee : Int}
    (execution : Execution ownership key buy sell buyer seller price quantity)
    (ran : (Ledger.settle (execution_fill setup key buyer seller price quantity buy_fee sell_fee)).run ledger =
      .ok x ledger') : Exposed setup ledger' := by
  obtain ⟨T,bought,sold,_,positive,_,buys,sells,rfl⟩ := settle_legs execution ran
  have bought_exposed : Exposed setup bought := exposed.leg buys rfl positive
  have sold_exposed : Exposed setup sold := bought_exposed.leg sells rfl positive
  exact sold_exposed

theorem Exposed.open_order {order : SubmitOrder} {enabled : Bool} {listing : ListingTerms}
    {market_price : Option Int} {admission : Admission} {participant : ParticipantDefinition}
    (enrolled : setup.participants.get? order.participant_id = some participant)
    (bounded : 0 ≤ participant.limits.max_absolute_position)
    (admits : admit_order participant.limits enabled order listing ledger market_price = .ok admission)
    (ran : (Ledger.open_order order.participant_id order.instrument_id order.side order.quantity
      admission.reservation).run ledger = .ok x ledger') : Exposed setup ledger' := by
  obtain ⟨long,short⟩ := admit_worst admits
  rw [abs_of_nonneg bounded] at long short
  obtain ⟨T,_,positive,_,posts⟩ := Ledger.change_open_posts ran
  intro p P i here
  obtain ⟨above,below⟩ := exposed p P i here
  rw [posts.quantity,posts.open_buy,posts.open_sell]
  by_cases account : p = order.participant_id ∧ i = order.instrument_id
  · obtain ⟨rfl,rfl⟩ := account
    cases enrolled.symm.trans here
    cases side : order.side with
    | Buy =>
      have := long side
      simp [Entry.opening,Ledger.moved]
      omega
    | Sell =>
      have := short side
      simp [Entry.opening,Ledger.moved]
      omega
  · simp only [Entry.opening,account,if_false]
    omega

end

theorem Move.exposed (move : Move setup base now a b) (lawful : Lawful setup a.2.run)
    (bounded : ∀ p P, setup.participants.get? p = some P → 0 ≤ P.limits.max_absolute_position)
    (posts : PostsOnly (fun event => ∀ e ∈ event.entries setup.terms base, e.lots = {}) b.2)
    (exposed : Exposed setup a.2.run.ledger) : Exposed setup b.2.run.ledger := by
  cases move with
  | simulated posted _ =>
    refine exposed.post_all posted.posts fun e member => ?_
    obtain ⟨event,cash_only,inside⟩ := posts.entries setup.terms base member
    exact cash_only e inside
  | canceled _ _ _ _ _ closes => exact exposed.close closes
  | @filled _ _ _ _ _ _ taker _ _ _ _ _ _ dealt =>
    obtain ⟨_,_,_,_,_,_,settles,_⟩ := dealt.settled
    have deals := dealt.deals
    unfold Deals at deals
    unfold deal_fill at settles
    cases side : taker.side with
    | Buy =>
      rw [side] at deals settles
      exact exposed.settle deals settles
    | Sell =>
      rw [side] at deals settles
      exact exposed.settle deals settles
  | @accepted _ _ order _ _ _ screened _ _ opens =>
    obtain ⟨participant,enrolled,admits⟩ := screened.admitted
    have known : setup.participants.get? order.participant_id = some participant := by rw [← lawful.same]; exact enrolled
    exact exposed.open_order known (bounded _ _ known) admits opens
  | dropped _ _ closes => exact exposed.close closes
  | touched _ | emitted _ | executed _ _ | uncrossed _ _ _ | called _ | completed _ _ | rested _ _ _ _ _ _
  | switched _ | marked _ | closed _ _ | passed _ _ _ _ | announced _ => exact exposed

end Positions

section Limits
variable {scenario : ScenarioDefinition} {s : RunState}

/-- The participants start within limits that are not negative. -/
def ScenarioDefinition.Modest (scenario : ScenarioDefinition) : Prop :=
  ∀ participant ∈ scenario.participants.values, 0 ≤ participant.limits.max_absolute_position ∧
    ∀ entry ∈ participant.initial_positions.entries, |entry.2| ≤ participant.limits.max_absolute_position

theorem Opened.exposed {start : RunState} (opened : Opened scenario start) (modest : scenario.Modest) :
    Exposed start.setup start.ledger := by
  intro p P i enrolled
  rw [show start.setup.participants = scenario.participants from opened.participants] at enrolled
  obtain ⟨bounded,within⟩ := modest P (OrdMap.mem_values.mpr ⟨p,enrolled⟩)
  obtain ⟨quantity,lots,opening⟩ := opened.seeded.lots p i
  simp only [Position.lots,Lots.mk.injEq] at lots
  rw [lots.1,lots.2.2.1,lots.2.2.2]
  have inside : |quantity| ≤ P.limits.max_absolute_position := by
    rcases opening with rfl | ⟨participant,listed,named,held⟩
    · simpa using bounded
    · obtain ⟨id,there⟩ := OrdMap.mem_values.mp listed
      have valid := opened.checked.enrolled (id,participant) (OrdMap.get?_eq_some_iff.mp there)
      simp only [ScenarioDefinition.valid_participant,decide_eq_true_eq] at valid
      rw [valid.1,named] at there
      cases enrolled.symm.trans there
      exact within (i,quantity) (OrdMap.get?_eq_some_iff.mp held)
  obtain ⟨lowest,highest⟩ := abs_le.mp inside
  omega

theorem ReachableWhere.exposed (modest : scenario.Modest)
    (reachable : ReachableWhere (fun _ input => input.order_flow = true) scenario s) : Exposed s.setup s.ledger := by
  refine reachable.accounts_keep (R := fun _ e => e.lots = {}) (fun start opened => opened.exposed modest)
    (fun _ _ _ _ _ _ _ _ => rfl) fun {s now c d} before move lawful posts exposed => ?_
  refine move.exposed lawful (fun p P enrolled => ?_) posts exposed
  rw [before.participants] at enrolled
  exact (modest P (OrdMap.mem_values.mpr ⟨p,enrolled⟩)).1

/-- What is reserved of a position that cannot be short is not negative, and is there. -/
theorem Sane.stocked (sane : Sane s) (p : ParticipantId) {i : InstrumentId} {T : InstrumentTerms}
    (known : s.ledger.terms.get? i = some T) (long : T.shortable = false) :
    0 ≤ (s.ledger.position_of p i).reserved ∧ (s.ledger.position_of p i).reserved ≤ (s.ledger.position_of p i).quantity := by
  have accounts := (sane.inv 0).balanced.accounts
  have fair : Fair s.ownership := (sane.inv 0).records.fair sane.valid fun _ _ flies => (nomatch flies)
  refine ⟨?_,accounts.stocked p i T known long⟩
  have reserved := accounts.reserved (.Inventory p i)
  simp only [Counter.read] at reserved
  rw [reserved]
  exact held_nonneg fair _ _

/-- Order flow keeps every position within its limit, whichever open orders fill, and no run sells what cannot be
    short beyond what is held. -/
theorem positions_stay_within_limits (scenario : ScenarioDefinition) :
    (scenario.Modest → ∀ s, ReachableWhere (fun _ input => input.order_flow = true) scenario s →
      ∀ p P i, scenario.participants.get? p = some P →
        (s.ledger.position_of p i).quantity + (s.ledger.position_of p i).open_buy ≤ P.limits.max_absolute_position ∧
        -P.limits.max_absolute_position ≤ (s.ledger.position_of p i).quantity - (s.ledger.position_of p i).open_sell) ∧
    ∀ s, Reachable scenario s → ∀ p i I, scenario.instruments.get? i = some I → I.shortable = false →
      0 ≤ (s.ledger.position_of p i).reserved ∧ (s.ledger.position_of p i).reserved ≤ (s.ledger.position_of p i).quantity := by
  refine ⟨fun modest s reachable p P i enrolled => ?_,fun s reachable p i I defined long => ?_⟩
  · have exposed := ReachableWhere.exposed modest reachable
    rw [← reachable.reachable.participants] at enrolled
    exact exposed p P i enrolled
  · have known : s.ledger.terms.get? i = some I.terms := by rw [reachable.terms,OrdMap.get?_mapValues,defined]; rfl
    exact reachable.sane.stocked p known long

/-- The sole instrument cannot be short, and the sole participant has ten lots of it. -/
def sample_long : ScenarioDefinition := { sample with
  instruments := OrdMap.ofList [(1,{ instrument_id := 1, symbol := "A", currency := 1, opening_mark := some 5 })]
  participants := OrdMap.ofList [(2,⟨2,true,⟨1000,1000,1000,true,10⟩,∅,OrdMap.ofList [(1,10)]⟩)] }

theorem positions_stay_within_limits_trading : (∃ s, ReachableWhere (fun _ input => input.order_flow = true) sample s ∧
    (s.ledger.position_of 1 1).quantity = 4 ∧ (s.ledger.position_of 1 1).open_buy = 6 ∧
    (s.ledger.position_of 1 1).quantity + (s.ledger.position_of 1 1).open_buy ≤ 1000) ∧
    ∃ s, Reachable sample_long s ∧ (s.ledger.position_of 2 1).reserved = 4 ∧ 4 ≤ (s.ledger.position_of 2 1).quantity := by
  constructor
  · obtain ⟨s,reachable,quantity,open_buy⟩ := @play_reaches_where sample (fun _ input => input.order_flow = true) sample_codec
      [place 0 1 7 1 .Buy 10 (.Limit 5),place 1 2 8 2 .Sell 4 (.Limit 5)]
      (fun s => (s.ledger.position_of 1 1).quantity = 4 ∧ (s.ledger.position_of 1 1).open_buy = 6) (by decide +kernel)
    have modest : sample.Modest := by unfold ScenarioDefinition.Modest; decide
    exact ⟨s,reachable,quantity,open_buy,((positions_stay_within_limits sample).1 modest s reachable 1 _ 1 rfl).1⟩
  · obtain ⟨start,history,s,starts,runs,reserved⟩ := @play_reaches sample_long sample_codec [place 0 1 7 2 .Sell 4 (.Limit 5)]
      (fun _ s => (s.ledger.position_of 2 1).reserved = 4) (by decide +kernel)
    have held := (positions_stay_within_limits sample_long).2 s ⟨start,history,starts,runs⟩ 2 1 _ rfl rfl
    exact ⟨s,⟨start,history,starts,runs⟩,reserved,reserved ▸ held.2⟩

end Limits

/-! ### Cash -/

/-- Who pays from its own cash only has what is reserved of it. -/
def Solvent (setup : Setup) (ledger : Ledger) : Prop :=
  ∀ p c, funded setup.participants p = true → (ledger.cash_of p c).reserved ≤ (ledger.cash_of p c).balance

section Cash
variable {setup : Setup} {ledger ledger' : Ledger} {e : Entry} {base : SimulationState} {now : Nat} {a b : Mode × Transition}

/-- An entry that reserves no more than it brings in. -/
theorem Solvent.post (solvent : Solvent setup ledger) (posts : Ledger.Posts e ledger ledger')
    (pays : funded setup.participants e.participant = true → e.cash.reserved ≤ e.cash.balance) : Solvent setup ledger' := by
  intro p c constrained
  have enough := solvent p c constrained
  rw [posts.cash_reserved,posts.balance]
  split_ifs with here
  · have := pays (here.1 ▸ constrained)
    omega
  · omega

theorem Solvent.post_all {es : List Entry} (solvent : Solvent setup ledger) (posts : Ledger.PostsAll es ledger ledger')
    (free : ∀ e ∈ es, e.Free) (pays : ∀ e ∈ es, funded setup.participants e.participant = true → 0 ≤ e.cash.balance) :
    Solvent setup ledger' := by
  induction posts with
  | nil => exact solvent
  | @cons e es _ _ _ first rest ih =>
    have head : e ∈ e :: es := List.mem_cons_self
    refine ih (solvent.post first fun constrained => ?_) (fun f member => free f (List.mem_cons_of_mem _ member))
      fun f member => pays f (List.mem_cons_of_mem _ member)
    rw [(free e head).1]
    exact pays e head constrained

/-- What a live order of one who pays from its own cash reserves per lot is not negative. -/
theorem Admitted.reserves {owned : OwnedOrder} (admitted : Admitted setup owned) (valid : setup.Valid) (cheap : setup.Cheap)
    (buys : owned.side = .Buy) (pays : funded setup.participants owned.participant_id = true) :
    0 ≤ owned.reservation.cash_per_lot := by
  have admits := admitted
  obtain ⟨D,T,listed,known,lowest,_,_⟩ := admits
  rw [admitted.cash_per_lot listed known buys pays]
  have low := cheap _ D T listed known
  have worth := mul_le_mul_of_nonneg_right lowest (valid.multiplier known).le
  have fee := D.fees.bound_nonneg
  omega

section
variable (solvent : Solvent setup ledger) {x : Unit}
include solvent

theorem Solvent.close {side : Side} (reserves : side = .Buy → funded setup.participants participant = true → 0 ≤ order.cash_per_lot)
    (ran : (Ledger.close_order participant instrument side quantity order).run ledger = .ok x ledger') :
    Solvent setup ledger' := by
  obtain ⟨T,_,positive,_,posts⟩ := Ledger.change_open_posts ran
  refine solvent.post posts fun pays => ?_
  simp only [Entry.opening,Ledger.moved,Bool.false_eq_true,if_false,mul_neg] at pays ⊢
  by_cases buys : side = .Buy
  · have := mul_nonneg (reserves buys pays) positive.le
    rw [if_pos buys]
    omega
  · rw [if_neg buys]

theorem Solvent.open_order {side : Side}
    (ran : (Ledger.open_order participant instrument side quantity order).run ledger = .ok x ledger') : Solvent setup ledger' := by
  obtain ⟨T,_,_,admits,posts⟩ := Ledger.change_open_posts ran
  obtain ⟨_,_,cash,_⟩ := admits
  intro p c constrained
  have enough := solvent p c constrained
  rw [posts.cash_reserved,posts.balance]
  simp only [Entry.opening]
  by_cases account : p = participant ∧ c = T.currency
  · obtain ⟨rfl,rfl⟩ := account
    by_cases buys : side = .Buy
    · have within := (cash buys).2 rfl
      rw [CashBalance.opened_reserved,if_pos buys] at within
      simpa [buys] using within
    · simpa [buys] using enough
  · simpa [account] using enough

theorem Solvent.settle {ownership : OrdMap OrderId OwnedOrder} {key : ListingKey} {buy sell : OrderId}
    {buyer seller : OwnedOrder} {price buy_fee sell_fee : Int} {D : ListingDefinition}
    (valid : setup.Valid) (cheap : setup.Cheap) (terms : ledger.terms = setup.terms)
    (execution : Execution ownership key buy sell buyer seller price quantity) (admitted : Admitted setup seller)
    (listed : setup.definitions.get? key = some D) (charged : sell_fee ≤ D.fees.bound * quantity)
    (ran : (Ledger.settle (execution_fill setup key buyer seller price quantity buy_fee sell_fee)).run ledger =
      .ok x ledger') : Solvent setup ledger' := by
  obtain ⟨T,bought,sold,known,positive,_,buys,sells,rfl⟩ := settle_legs execution ran
  have bought_solvent : Solvent setup bought := by
    obtain ⟨posts,_,funds⟩ := Ledger.leg_posts buys positive
    intro p c constrained
    rw [posts.cash_reserved,posts.balance]
    split_ifs with here
    · -- The ledger has checked the buyer.
      obtain ⟨rfl,rfl⟩ := here
      have paid := funds.1 execution.buy_side constrained
      simpa [Entry.leg,Entry.opening,OwnedOrder.party,CashBalance.released,CashBalance.opened,execution.buy_side,
        sub_eq_add_neg,add_assoc] using paid
    · have enough := solvent p c constrained
      omega
  -- The seller gets at least its fee.
  rw [terms] at known
  have worth : sell_fee ≤ price * quantity * T.multiplier :=
    admitted.worth valid cheap (by rw [execution.sell_key]; exact listed) (by rw [execution.sell_key]; exact known)
      execution.above positive charged
  have sold_solvent : Solvent setup sold := by
    obtain ⟨posts,_⟩ := Ledger.leg_posts sells positive
    refine bought_solvent.post posts fun _ => ?_
    simp [Entry.leg,Entry.opening,OwnedOrder.party,execution.sell_side]
    omega
  exact sold_solvent

end

theorem Move.solvent (move : Move setup base now a b) (lawful : Lawful setup a.2.run) (valid : setup.Valid)
    (cheap : setup.Cheap)
    (posts : PostsOnly (fun event => ∀ e ∈ event.entries setup.terms base,
      funded setup.participants e.participant = true → 0 ≤ e.cash.balance) b.2)
    (solvent : Solvent setup a.2.run.ledger) : Solvent setup b.2.run.ledger := by
  cases move with
  | simulated posted _ =>
    refine solvent.post_all posted.posts posted.free fun e member => ?_
    obtain ⟨event,pays,inside⟩ := posts.entries setup.terms base member
    exact pays e inside
  | canceled found live _ _ _ closes =>
    exact solvent.close (fun buys pays => (lawful.admitted _ _ found live).reserves valid cheap buys pays) closes
  | @filled _ t key _ _ _ taker _ _ _ _ _ _ dealt =>
    obtain ⟨D,_,_,listed,maker_charged,taker_charged,settles,_⟩ := dealt.settled
    have terms : t.run.ledger.terms = setup.terms := by rw [← lawful.same]; rfl
    have deals := dealt.deals
    unfold Deals at deals
    unfold deal_fill at settles
    cases side : taker.side with
    | Buy =>
      rw [side] at deals settles
      exact solvent.settle valid cheap terms deals dealt.maker_admitted listed maker_charged settles
    | Sell =>
      rw [side] at deals settles
      exact solvent.settle valid cheap terms deals dealt.taker_admitted listed taker_charged settles
  | accepted _ _ _ opens => exact solvent.open_order opens
  | @dropped _ order key ticket remaining _ positive found closes =>
    have live : ((order.owned key ticket).left remaining).state = .Active := if_neg positive.ne'
    have admitted := lawful.admitted _ _ found live
    exact solvent.close (fun buys pays => admitted.reserves valid cheap buys pays) closes
  | touched _ | emitted _ | executed _ _ | uncrossed _ _ _ | called _ | completed _ _ | rested _ _ _ _ _ _
  | switched _ | marked _ | closed _ _ | passed _ _ _ _ | announced _ => exact solvent

end Cash

namespace ScenarioDefinition
variable (scenario : ScenarioDefinition)

/-- No participant starts in debt. -/
def Endowed : Prop :=
  ∀ participant ∈ scenario.participants.values, ∀ entry ∈ participant.initial_cash.entries, 0 ≤ entry.2

/-- A lot is worth its fee at the lowest price of every listing. -/
def Cheap : Prop :=
  ∀ entry ∈ scenario.listings.entries, ∀ I ∈ scenario.instruments.get? entry.1.instrument_id,
    entry.2.fees.bound ≤ entry.2.price_bounds.min * I.multiplier

/-- No scheduled cashflow takes from who pays from its own cash only. -/
def Undrained : Prop :=
  ∀ action ∈ scenario.simulation.scheduled_actions, ∀ p c amount, action.kind = .Cashflow p c amount →
    funded scenario.participants p = true → 0 ≤ amount

end ScenarioDefinition

section Debt
variable {scenario : ScenarioDefinition} {s : RunState}

theorem Reachable.cheap (reachable : Reachable scenario s) (cheap : scenario.Cheap) : s.setup.Cheap := by
  intro key D T listed known
  rw [reachable.definitions] at listed
  have terms : s.setup.terms = scenario.instruments.mapValues (fun _ instrument => instrument.terms) := reachable.terms
  rw [terms,OrdMap.get?_mapValues] at known
  obtain ⟨I,defined,rfl⟩ := Option.map_eq_some_iff.mp known
  exact cheap (key,D) (OrdMap.get?_eq_some_iff.mp listed) I defined

/-- Where a lot is worth its fee and no cashflow drains it, who pays from its own cash only does not trade into debt. -/
theorem order_flow_stays_solvent (endowed : scenario.Endowed) (cheap : scenario.Cheap) (undrained : scenario.Undrained)
    (reachable : ReachableWhere (fun _ input => input.order_flow = true) scenario s) (p : ParticipantId)
    (P : ParticipantDefinition) (c : CurrencyId) (enrolled : scenario.participants.get? p = some P)
    (constrained : P.limits.cash_constrained = true) :
    0 ≤ (s.ledger.cash_of p c).balance - (s.ledger.cash_of p c).reserved := by
  have solvent : Solvent s.setup s.ledger := by
    refine reachable.accounts_keep (R := fun setup e => funded setup.participants e.participant = true → 0 ≤ e.cash.balance)
      (fun start opened p c _ => ?_) (fun s before action member p c amount kind pays => ?_)
      fun {s now c d} before move lawful posts solvent =>
        move.solvent lawful before.sane.valid (before.cheap cheap) posts solvent
    · rw [opened.seeded.reserved]
      exact opened.seeded.balance endowed p c
    · rw [before.participants] at pays
      exact undrained action member p c amount kind pays
  have pays : funded s.setup.participants p = true := by
    rw [reachable.reachable.participants,funded,enrolled]
    exact constrained
  exact sub_nonneg.mpr (solvent p c pays)

theorem order_flow_stays_solvent_sample : ∃ s, ReachableWhere (fun _ input => input.order_flow = true) sample s ∧
    (s.ledger.cash_of 1 1).reserved = 30 ∧ 0 ≤ (s.ledger.cash_of 1 1).balance - (s.ledger.cash_of 1 1).reserved := by
  obtain ⟨s,reachable,held⟩ := @play_reaches_where sample (fun _ input => input.order_flow = true) sample_codec
    [place 0 1 7 1 .Buy 10 (.Limit 5),place 1 2 8 2 .Sell 4 (.Limit 5)]
    (fun s => (s.ledger.cash_of 1 1).reserved = 30) (by decide +kernel)
  have endowed : sample.Endowed := by unfold ScenarioDefinition.Endowed; decide
  have cheap : sample.Cheap := by unfold ScenarioDefinition.Cheap; decide
  exact ⟨s,reachable,held,order_flow_stays_solvent endowed cheap (fun _ none => nomatch none) reachable 1 _ 1 rfl rfl⟩

/-- The small market with a fee above the price of a lot, where the seller starts without cash. -/
def dear : ScenarioDefinition := { sample with
  listings := OrdMap.ofList [(⟨1,1⟩,{ key := ⟨1,1⟩, symbol := "A", price_bounds := ⟨1,100⟩, fees := ⟨50,0⟩ })]
  participants := OrdMap.ofList [sample_trader 1 1000,sample_trader 2 0] }

/-- A seller pays more in fees than it gets. -/
theorem order_flow_runs_into_debt : dear.Endowed ∧ ∃ s P,
    ReachableWhere (fun _ input => input.order_flow = true) dear s ∧ dear.participants.get? 2 = some P ∧
      P.limits.cash_constrained = true ∧ (s.ledger.cash_of 2 1).balance - (s.ledger.cash_of 2 1).reserved < 0 := by
  refine ⟨by unfold ScenarioDefinition.Endowed; decide,?_⟩
  obtain ⟨s,reachable,owes⟩ := @play_reaches_where dear (fun _ input => input.order_flow = true) sample_codec
    [place 0 1 7 1 .Buy 10 (.Limit 5),place 1 2 8 2 .Sell 4 (.Limit 5)]
    (fun s => (s.ledger.cash_of 2 1).balance - (s.ledger.cash_of 2 1).reserved < 0) (by decide +kernel)
  exact ⟨s,_,reachable,rfl,rfl,owes⟩

end Debt

end Bunting
