import Bunting.Submission

/-!
Committing a transition. Its events are numbered on from the last event of the
run and projected into the market history, and the orders they end are retired;
a run that kept the invariant up to there is sane again. A commit fails by
overflow only.
-/

namespace Bunting
open Stateful

/-! ### What a commit writes -/

/-- The run with terminal orders retired one after another. -/
def retire_all (ids : List OrderId) (run : RunState) : RunState := ids.foldl (fun run id => retire id run) run

/-- The transition with terminal orders retired and a market history. -/
def Transition.projected (t : Transition) (ids : List OrderId) (market : OrdMap InstrumentId MarketProjection)
    (market_by_listing : OrdMap ListingKey MarketProjection) : Transition :=
  { t with run := { retire_all ids t.run with simulation := { t.run.simulation with market, market_by_listing } } }

def RunState.committed (t : Transition) (next : Nat) (market : OrdMap InstrumentId MarketProjection)
    (market_by_listing : OrdMap ListingKey MarketProjection) : RunState :=
  { (t.projected (t.payloads.filterMap EventPayload.terminal) market market_by_listing).run with
    sequence := next
    event_sequence := t.run.event_sequence + t.payloads.length }

section Retire
variable (id : OrderId) (ids rest more : List OrderId) (run : RunState) (simulation : SimulationState)

@[simp] theorem retire_all_nil : retire_all [] run = run := rfl

@[simp] theorem retire_all_cons : retire_all (id :: rest) run = retire_all rest (retire id run) := by
  simp only [retire_all,List.foldl_cons]

theorem retire_eq : ∃ ownership retired live_orders, retire id run = { run with ownership, retired, live_orders } :=
  ⟨_,_,_,rfl⟩

theorem retire_expiries : (retire id run).expiries = run.expiries := by
  obtain ⟨_,_,_,same⟩ := retire_eq id run
  rw [same]

theorem retire_ledger : (retire id run).ledger = run.ledger := by
  obtain ⟨_,_,_,same⟩ := retire_eq id run
  rw [same]

theorem retire_all_eq : ∃ ownership retired live_orders, retire_all ids run = { run with ownership, retired, live_orders } := by
  induction ids generalizing run with
  | nil => exact ⟨run.ownership,run.retired,run.live_orders,rfl⟩
  | cons id rest ih =>
    obtain ⟨ownership,retired,live_orders,same⟩ := ih (retire id run)
    obtain ⟨_,_,_,first⟩ := retire_eq id run
    refine ⟨ownership,retired,live_orders,?_⟩
    rw [retire_all_cons,same,first]

theorem retire_simulation : retire id { run with simulation } = { retire id run with simulation } := by
  unfold retire
  rfl

theorem retire_all_simulation : retire_all ids { run with simulation } = { retire_all ids run with simulation } := by
  induction ids generalizing run with
  | nil => rfl
  | cons id rest ih => rw [retire_all_cons,retire_simulation,ih,retire_all_cons]

theorem retire_all_append : retire_all (ids ++ more) run = retire_all more (retire_all ids run) := by
  simp only [retire_all,List.foldl_append]

variable {id ids run} {setup : Setup} {views : Views}

theorem Transition.projected_projected (t : Transition) (ids more : List OrderId)
    (market market' : OrdMap InstrumentId MarketProjection)
    (market_by_listing market_by_listing' : OrdMap ListingKey MarketProjection) :
    (t.projected ids market market_by_listing).projected more market' market_by_listing' =
      t.projected (ids ++ more) market' market_by_listing' := by
  unfold Transition.projected
  rw [retire_all_simulation,retire_all_append]

theorem Records.retire_all
    (records : Records setup views none ids run.ownership run.expiries run.retired run.live_orders) :
    Records setup views none [] (retire_all ids run).ownership run.expiries (retire_all ids run).retired
      (retire_all ids run).live_orders := by
  induction ids generalizing run with
  | nil => exact records
  | cons id rest ih =>
    have further := records.retire
    rw [← retire_expiries id run] at further
    have done := ih further
    rw [retire_expiries] at done
    rw [retire_all_cons]
    exact done

theorem Balanced.retire_all {F : Frame}
    (records : Records F.setup views none ids run.ownership run.expiries run.retired run.live_orders)
    (balanced : Balanced F run.ledger run.ownership) : Balanced F run.ledger (retire_all ids run).ownership := by
  induction ids generalizing run with
  | nil => exact balanced
  | cons id rest ih =>
    have pruned := balanced.prune records.retirement.outgoing_ended
    rw [← retire_ownership,← retire_ledger id run] at pruned
    have further := records.retire
    rw [← retire_expiries id run] at further
    have done := ih further pruned
    rw [retire_ledger] at done
    rw [retire_all_cons]
    exact done

variable {j : OrderId} {owned : OwnedOrder}

theorem retire_all_get? (found : (retire_all ids run).ownership.get? j = some owned) :
    run.ownership.get? j = some owned := by
  induction ids generalizing run with
  | nil => exact found
  | cons id rest ih =>
    rw [retire_all_cons] at found
    have before := ih found
    rw [retire_ownership,OrdMap.get?_foldl_erase] at before
    split_ifs at before
    exact before

theorem Records.retire_all_live
    (records : Records setup views none ids run.ownership run.expiries run.retired run.live_orders)
    (found : run.ownership.get? j = some owned) (live : owned.state = .Active) :
    (Bunting.retire_all ids run).ownership.get? j = some owned := by
  induction ids generalizing run with
  | nil => exact found
  | cons id rest ih =>
    have further := records.retire
    rw [← retire_expiries id run] at further
    rw [retire_all_cons]
    refine ih further ?_
    rw [retire_ownership,OrdMap.get?_foldl_erase,if_neg]
    · exact found
    · exact fun leaves => records.retirement.outgoing_ended j leaves owned found live

end Retire

section Commit
variable {t t' : Transition} {time : Nat} {x : Unit} {payload : EventPayload} {command : Command} {next : Nat}
  {answer : Answer} {id : OrderId} {owned : OwnedOrder}

theorem project_event_ok {sim sim' : SimulationState} (ran : sim.project_event time payload = .ok sim') :
    ∃ market market_by_listing, sim' = { sim with market, market_by_listing } := by
  unfold SimulationState.project_event at ran
  split at ran
  · simp only [returned] at ran
    obtain ⟨_,_,_,view,_,listings,_,rfl⟩ := ran
    exact ⟨_,_,rfl⟩
  · cases except_pure_eq_ok.mp ran
    exact ⟨sim.market,sim.market_by_listing,rfl⟩

theorem commit_payload_ok (ran : (commit_payload time payload).run t = .ok x t') :
    ∃ market market_by_listing, t' = t.projected payload.terminal.toList market market_by_listing := by
  simp only [commit_payload,returned] at ran
  cases projects : t.run.simulation.project_event time payload with
  | error e => rw [projects] at ran; exact (throw_eq_ok.mp ran).elim
  | ok simulation =>
    rw [projects] at ran
    simp only [modify_run,returned] at ran
    obtain rfl := ran
    obtain ⟨market,market_by_listing,rfl⟩ := project_event_ok projects
    refine ⟨market,market_by_listing,?_⟩
    cases ends : payload.terminal with
    | none => rfl
    | some id =>
      unfold Transition.projected
      simp only [Option.elim,Option.toList,retire_all_cons,retire_all_nil]
      rw [retire_simulation]

variable {payloads : List EventPayload}

theorem commit_payloads_ok (ran : (forM payloads (commit_payload time)).run t = .ok x t') :
    ∃ market market_by_listing,
      t' = t.projected (payloads.filterMap EventPayload.terminal) market market_by_listing := by
  induction payloads generalizing t with
  | nil =>
    obtain ⟨_,rfl⟩ := pure_eq_ok.mp ran
    exact ⟨t.run.simulation.market,t.run.simulation.market_by_listing,rfl⟩
  | cons payload rest ih =>
    simp only [List.forM_cons,returned] at ran
    obtain ⟨u,first,ran⟩ := ran
    obtain ⟨market,market_by_listing,rfl⟩ := commit_payload_ok first
    obtain ⟨market',market_by_listing',rfl⟩ := ih ran
    refine ⟨market',market_by_listing',?_⟩
    rw [Transition.projected_projected]
    cases ends : payload.terminal <;> simp [ends]

/-- The events are the payloads in order, numbered on from the last event. -/
theorem envelope_ok {current : Nat} {events : List EventEnvelope}
    (ran : envelope command current payloads = .ok events) :
    events.map EventEnvelope.payload = payloads ∧
    events.map EventEnvelope.sequence = List.range' (current + 1) payloads.length := by
  have general (payloads : List EventPayload) (start : Nat) (events : List EventEnvelope) :
      (payloads.zipIdx start).mapM (m := Except Fault) (fun entry => do
      let sequence ← orElse (to_u64 (current + (entry.2 + 1))) (Fault.overflow .SequenceOverflow)
      pure (EventEnvelope.mk EVENT_SCHEMA_VERSION command.run_id sequence sequence command.logical_time command.actor
        command.command_id command.correlation_id none entry.1)) = Except.ok events →
      events.map EventEnvelope.payload = payloads ∧
      events.map EventEnvelope.sequence = List.range' (current + start + 1) payloads.length := by
    induction payloads generalizing start events with
    | nil =>
      intro ran
      cases except_pure_eq_ok.mp ran
      exact ⟨rfl,rfl⟩
    | cons payload rest ih =>
      intro ran
      simp only [List.zipIdx_cons,List.mapM_cons,returned] at ran
      obtain ⟨_,⟨sequence,fits,rfl⟩,later,ran,rfl⟩ := ran
      cases to_u64_some fits
      obtain ⟨payloads,sequences⟩ := ih (start + 1) later ran
      refine ⟨by rw [List.map_cons,payloads],?_⟩
      rw [List.map_cons,sequences,List.length_cons,List.range'_succ]
      congr 1
  exact general payloads 0 events ran

/-- A transition that is committed, with the answer to its input. -/
structure Finished (t : Transition) (next : Nat) (applied : Applied) (s : RunState) : Prop where
  commits : ∃ market market_by_listing, s = .committed t next market market_by_listing
  payloads : applied.events.map EventEnvelope.payload = t.payloads
  sequences : applied.events.map EventEnvelope.sequence = List.range' (t.run.event_sequence + 1) t.payloads.length
  changed : applied.changed_listings = t.changed

theorem finish_ok {applied : Applied} (ran : (finish command next answer).run t = .ok applied t') :
    Finished t next applied t'.run ∧ applied.accepted = answer.accepted ∧ applied.reject_code = answer.reject_code := by
  simp only [finish,modify_run,returned] at ran
  obtain ⟨_,commits,events,numbers,rfl,rfl⟩ := ran
  obtain ⟨market,market_by_listing,rfl⟩ := commit_payloads_ok commits
  obtain ⟨_,_,_,kept⟩ := retire_all_eq (t.payloads.filterMap EventPayload.terminal) t.run
  have counted : (t.projected (t.payloads.filterMap EventPayload.terminal) market market_by_listing).run.event_sequence =
      t.run.event_sequence := by
    unfold Transition.projected
    rw [kept]
  rw [counted] at numbers
  obtain ⟨payloads,sequences⟩ : events.map EventEnvelope.payload = t.payloads ∧
    events.map EventEnvelope.sequence = List.range' (t.run.event_sequence + 1) t.payloads.length := envelope_ok numbers
  refine ⟨⟨⟨market,market_by_listing,?_⟩,payloads,sequences,rfl⟩,rfl,rfl⟩
  have last : events.getLast?.elim t.run.event_sequence EventEnvelope.sequence = t.run.event_sequence + t.payloads.length := by
    have of_map : events.getLast?.elim t.run.event_sequence EventEnvelope.sequence =
        (events.map EventEnvelope.sequence).getLast?.getD t.run.event_sequence := by
      rw [List.getLast?_map]
      cases events.getLast? <;> rfl
    rw [of_map,sequences,List.getLast?_range']
    split_ifs with none
    · rw [none]; rfl
    · simp only [Option.getD_some]; omega
  unfold RunState.committed
  rw [counted,last]

/-! ### What can fail -/

theorem MarketProjection.record_trade_only (view : MarketProjection) (trade : TradeRecord) :
    FailsOnly (· = .ArithmeticOverflow) (view.validate_trade trade) ∧
    FailsOnly (· = .ArithmeticOverflow) (view.record_trade trade) := by
  have validates : FailsOnly (· = .ArithmeticOverflow) (view.validate_trade trade) := by
    refine .bind (.orElse rfl) fun _ _ => ?_
    split
    · exact .pure _
    · exact .bind (.orElse rfl) fun _ _ => .pure _
  refine ⟨validates,.bind validates fun _ _ => .bind (.orElse rfl) fun _ _ => .bind ?_ fun _ _ => .pure _⟩
  unfold MarketProjection.record_bar
  split
  · exact .bind (.orElse rfl) fun _ _ => .pure _
  · exact .pure _

theorem project_event_only {sim : SimulationState} (aligned : payload.Aligned) :
    FailsOnly (· = .ArithmeticOverflow) (sim.project_event time payload) := by
  unfold SimulationState.project_event
  split
  · next instrument listing_key maker taker buyer seller price quantity buyer_fee seller_fee =>
    have passes : ¬ listing_key.any (fun listing => decide (listing.instrument_id ≠ instrument)) = true := by
      cases listing_key with
      | none => simp
      | some key =>
        have same : key.instrument_id = instrument := aligned
        simp [same]
    refine .bind (.refuse passes) fun _ _ => .bind ?_ fun _ _ => .bind ?_ fun _ _ =>
      .bind (MarketProjection.record_trade_only _ _).2 fun _ _ => .bind ?_ fun _ _ => .pure _
    · cases listing_key.bind sim.market_by_listing.get? with
      | none => exact .pure _
      | some view => exact (view.record_trade_only _).1
    · cases sim.market.get? instrument with
      | none => exact .pure _
      | some view => exact (view.record_trade_only _).1
    · unfold SimulationState.project_listing
      cases listing_key with
      | none => exact .pure _
      | some key => exact .bind (MarketProjection.record_trade_only _ _).2 fun _ _ => .pure _
  · exact .pure _

theorem commit_payloads_meets (aligned : ∀ payload ∈ payloads, payload.Aligned) :
    Meets (fun u => u.payloads = t.payloads) (forM payloads (commit_payload time)) (fun _ u => u.payloads = t.payloads)
      Overflows := by
  refine (forM_meets (fun rest u => u.payloads = t.payloads ∧ ∀ payload ∈ rest, payload.Aligned)
    (fun payload rest => ?_) payloads).imp (fun _ same => ⟨same,aligned⟩) (fun _ _ holds => holds.1) fun _ _ large => large
  refine get_meets fun u ⟨same,aligned⟩ => ?_
  have only : FailsOnly (· = .ArithmeticOverflow) (u.run.simulation.project_event time payload) :=
    project_event_only (aligned payload List.mem_cons_self)
  cases projects : u.run.simulation.project_event time payload with
  | error e =>
    intro v _
    cases only e projects
    exact rfl
  | ok simulation =>
    rintro _ rfl
    exact ⟨same,fun other member => aligned other (List.mem_cons_of_mem _ member)⟩

theorem finish_meets (aligned : ∀ payload ∈ t.payloads, payload.Aligned) :
    Meets (fun u => t = u) (finish command next answer) (fun _ _ => True) Overflows := by
  refine get_meets fun _ same => ?_
  subst same
  refine ((commit_payloads_meets aligned).at_state rfl).bind fun _ => get_meets fun u same => ?_
  have numbers : FailsOnly (fun fault => fault.cause = .Overflow)
      (envelope command u.run.event_sequence u.payloads) := .mapM fun _ _ => .bind (.orElse rfl) fun _ _ => .pure _
  cases made : envelope command u.run.event_sequence u.payloads with
  | error fault =>
    intro v _
    exact numbers fault made
  | ok events =>
    intro v _
    trivial

/-! ### The run after a commit -/

theorem RunState.committed_eq (t : Transition) (next : Nat) (market : OrdMap InstrumentId MarketProjection)
    (market_by_listing : OrdMap ListingKey MarketProjection) :
    ∃ ownership retired live_orders, RunState.committed t next market market_by_listing = { t.run with
      ownership, retired, live_orders
      simulation := { t.run.simulation with market, market_by_listing }
      sequence := next
      event_sequence := t.run.event_sequence + t.payloads.length } ∧
      ownership = (retire_all (t.payloads.filterMap EventPayload.terminal) t.run).ownership ∧
      retired = (retire_all (t.payloads.filterMap EventPayload.terminal) t.run).retired ∧
      live_orders = (retire_all (t.payloads.filterMap EventPayload.terminal) t.run).live_orders := by
  obtain ⟨ownership,retired,live_orders,kept⟩ := retire_all_eq (t.payloads.filterMap EventPayload.terminal) t.run
  refine ⟨ownership,retired,live_orders,?_,by rw [kept],by rw [kept],by rw [kept]⟩
  unfold RunState.committed Transition.projected
  rw [kept]

/-- A commit drops records that are over, and no others. -/
theorem RunState.committed_get? {market : OrdMap InstrumentId MarketProjection}
    {market_by_listing : OrdMap ListingKey MarketProjection}
    (found : (RunState.committed t next market market_by_listing).ownership.get? id = some owned) :
    t.run.ownership.get? id = some owned := by
  obtain ⟨_,_,_,same,owns,_⟩ := RunState.committed_eq t next market market_by_listing
  rw [same] at found
  simp only [owns] at found
  exact retire_all_get? found

theorem Inv.committed_live {F : Frame} (inv : Inv F t) (next : Nat)
    (market : OrdMap InstrumentId MarketProjection) (market_by_listing : OrdMap ListingKey MarketProjection)
    (found : t.run.ownership.get? id = some owned) (live : owned.state = .Active) :
    (RunState.committed t next market market_by_listing).ownership.get? id = some owned := by
  obtain ⟨_,_,_,same,owns,_⟩ := RunState.committed_eq t next market market_by_listing
  rw [same]
  simp only [owns]
  exact inv.records.retire_all_live found live

theorem Inv.committed {F : Frame} (inv : Inv F t) (sound : SimSound F.setup t.run.simulation) (next : Nat)
    (market : OrdMap InstrumentId MarketProjection) (market_by_listing : OrdMap ListingKey MarketProjection) :
    Sane (.committed t next market market_by_listing) := by
  have records := inv.records.retire_all
  have balanced := Balanced.retire_all inv.records inv.balanced
  obtain ⟨ownership,retired,live_orders,same,owned,window,counts⟩ := RunState.committed_eq t next market market_by_listing
  rw [← owned,← window,← counts] at records
  rw [← owned] at balanced
  have setup : (RunState.committed t next market market_by_listing).setup = F.setup := by
    rw [same]; exact inv.setup
  have valid : (RunState.committed t next market market_by_listing).setup.Valid := setup ▸ F.valid
  rw [same] at setup valid ⊢
  refine ⟨valid,setup ▸ sound.of_same ⟨rfl,rfl,rfl,rfl⟩,fun now => ⟨rfl,rfl,rfl,inv.books,?_,?_,inv.trades,inv.closes,
    ⟨fun _ none => (by cases none),rfl,rfl⟩,.refl⟩⟩
  · simp only [RunState.frame,setup]
    exact records
  · refine ⟨?_,fun _ => rfl,fun _ => rfl,balanced.marks,False.elim,False.elim⟩
    simp only [RunState.frame,setup]
    exact balanced.accounts

end Commit

end Bunting
