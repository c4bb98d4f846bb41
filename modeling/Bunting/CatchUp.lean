import Bunting.Sessions
import Bunting.SimulationCommands

/-!
A transition over the run it started from. `Sane` is the invariant of a run
between transitions; a `Stage` is a frame of a transition that started from it.
The first piece of every transition is to catch up with the time of its input:
scheduled actions, then session boundaries, then expiries.
-/

namespace Bunting
open Stateful

/-! ### What is due -/

namespace RunState

/-- What the scheduled actions due by a time post. -/
def due_entries (run : RunState) (time : Nat) : List Entry :=
  (run.simulation.due time).flatMap (run.simulation.entries run.ledger.terms)

/-- Once the cash due by the time is posted, who pays from its own cash only
    has the cash its live buy orders hold. -/
def Funded (run : RunState) (time : Nat) : Prop :=
  ∀ p c, funded run.participants p = true → Buying run.ledger.terms run.ownership p c →
    (run.ledger.cash_of p c).reserved ≤
      (run.ledger.cash_of p c).balance + ((run.due_entries time).map (Entry.paid p c)).sum

/-- Every rate has a mark, and every currency that an enrolled participant
    holds or is due to hold by the time has a rate. -/
structure Rated (run : RunState) (time : Nat) : Prop where
  marks : ∀ rate ∈ run.fx_rates, ∃ mark, run.ledger.marks.get? rate.instrument_id = some mark
  cash : ∀ p c, run.participants.contains p = true →
    (run.ledger.cash.contains (toLex (p,c)) = true ∨ ∃ e ∈ run.due_entries time, e.participant = p ∧ e.currency = c) →
    run.setup.Converts c

/-- Each action due by the time can settle after those before it. -/
def DueSettles (run : RunState) (time : Nat) : Prop :=
  AllSettleable run.setup run.simulation run.ledger (run.simulation.due time)

/-- The frame of a transition that starts from a run. -/
def frame (run : RunState) (valid : run.setup.Valid) (now : Nat) : Frame where
  setup := run.setup
  simulation := run.simulation
  steps := run.session_steps
  cash := run.ledger.total_cash
  lots := run.ledger.total_lots
  posting := []
  sessions := []
  base := run.simulation
  now := now
  start := { run }
  mode := .Open
  covered := False
  valued := False
  valid := valid
  cheap := False.elim

end RunState

/-- The invariant of a run between transitions. -/
structure Sane (run : RunState) : Prop where
  valid : run.setup.Valid
  sound : SimSound run.setup run.simulation
  inv : ∀ now, Inv (run.frame valid now) { run }

/-- A frame of a transition that started from the run, with what is vouched for. -/
structure Stage (start : RunState) (time : Nat) (covered valued : Prop) (F : Frame) : Prop where
  setup : F.setup = start.setup
  sound : SimSound start.setup F.simulation
  cash : ∀ c, F.cash c = start.ledger.total_cash c +
    ((F.posting.flatMap (SimulationEvent.entries start.ledger.terms start.simulation)).map (Entry.cash_in c)).sum
  lots : ∀ i, F.lots i = start.ledger.total_lots i +
    ((F.posting.flatMap (SimulationEvent.entries start.ledger.terms start.simulation)).map (Entry.lots_in i)).sum
  base : F.base = start.simulation
  now : F.now = time
  start : F.start = { run := start }
  covered : covered → F.covered
  valued : valued → F.valued

section Pieces
variable {s : RunState} {time : Nat} {covered valued : Prop} {F : Frame} {t : Transition}

theorem Sane.stage (sane : Sane s) (time : Nat) : Stage s time False False (s.frame sane.valid time) :=
  ⟨rfl,sane.sound,fun c => by simp [RunState.frame],fun i => by simp [RunState.frame],rfl,rfl,rfl,False.elim,
    False.elim⟩

end Pieces

/-! ### Simulation programs -/

/-- The frame after a simulation program. -/
def Frame.after (F : Frame) (simulation : SimulationState) (events : List SimulationEvent) (covered valued : Prop)
    (cheap : covered → F.setup.Cheap) : Frame where
  setup := F.setup
  simulation := simulation
  steps := F.steps
  cash c := F.cash c + ((events.flatMap (SimulationEvent.entries F.setup.terms F.base)).map (Entry.cash_in c)).sum
  lots i := F.lots i + ((events.flatMap (SimulationEvent.entries F.setup.terms F.base)).map (Entry.lots_in i)).sum
  posting := F.posting ++ events.filter SimulationEvent.posts
  sessions := F.sessions
  base := F.base
  now := F.now
  start := F.start
  mode := F.mode
  covered := covered
  valued := valued
  valid := F.valid
  cheap := cheap

variable {payloads : List EventPayload}

section Simulated
variable {s : RunState} {time : Nat} {covered valued covered' valued' : Prop} {F : Frame} {t : Transition}
  {w : World} {events : List SimulationEvent}

/-- Only the events that post have entries. -/
theorem posting_entries (terms : OrdMap InstrumentId InstrumentTerms) (base : SimulationState)
    (events : List SimulationEvent) :
    (events.filter SimulationEvent.posts).flatMap (SimulationEvent.entries terms base) =
      events.flatMap (SimulationEvent.entries terms base) := by
  induction events with
  | nil => rfl
  | cons event rest ih =>
    rw [List.filter_cons,List.flatMap_cons]
    split_ifs with posts
    · rw [List.flatMap_cons,ih]
    · have none : SimulationEvent.entries terms base event = [] := by
        cases event <;> first | rfl | exact absurd rfl posts
      rw [none,ih,List.nil_append]

theorem Emitted.simulation {posting : List SimulationEvent} {sessions : List SessionEvent}
    (emitted : Emitted posting sessions payloads)
    (own : events.all (fun event => !event.session) = true) :
    Emitted (posting ++ events.filter SimulationEvent.posts) sessions (payloads ++ events.map EventPayload.Simulation) where
  aligned payload member := by
    rcases List.mem_append.mp member with before | new
    · exact emitted.aligned payload before
    · obtain ⟨event,_,rfl⟩ := List.mem_map.mp new
      trivial
  posting := by
    rw [List.filterMap_append,emitted.posting,List.filterMap_map]
    congr 1
    clear own
    induction events with
    | nil => rfl
    | cons event rest ih =>
      rw [List.filterMap_cons,List.filter_cons]
      simp only [Function.comp,EventPayload.posting]
      cases event.posts <;> simp_all [Function.comp_def,EventPayload.posting]
  sessions := by
    have none : (events.map EventPayload.Simulation).filterMap EventPayload.session_event = [] := by
      refine List.filterMap_eq_nil_iff.mpr fun payload member => ?_
      obtain ⟨event,inside,rfl⟩ := List.mem_map.mp member
      exact SimulationEvent.session_event_none (by simpa using List.all_eq_true.mp own event inside)
    rw [List.filterMap_append,emitted.sessions,none,List.append_nil]

theorem Inv.simulated (inv : Inv F t) (cheap : covered → F.setup.Cheap)
    (posted : External F.setup (events.flatMap (SimulationEvent.entries F.setup.terms F.base)) t.run.ledger w.ledger)
    (own : events.all (fun event => !event.session) = true)
    (covers : covered → Covered F.setup w.ledger t.run.ownership) (values : valued → Valued F.setup w.ledger) :
    Inv (F.after w.sim events covered valued cheap) (t.simulated w events) := by
  have balanced : Balanced (F.after w.sim events covered valued cheap) w.ledger t.run.ownership := {
    accounts := posted.accounts inv.balanced.accounts
    cash := fun c => by rw [posted.posts.total_cash,inv.balanced.cash]; rfl
    lots := fun i => by rw [posted.posts.total_lots,inv.balanced.lots]; rfl
    marks := fun {i mark} found => by rw [posted.posts.marks] at found; exact inv.balanced.marks found
    covered := covers
    valued := values }
  have terminal : (t.simulated w events).payloads.filterMap EventPayload.terminal =
      t.payloads.filterMap EventPayload.terminal := by
    refine terminal_append (fun payload member => ?_) _
    obtain ⟨event,_,rfl⟩ := List.mem_map.mp member
    rfl
  exact ⟨@RunState.setup_of (F.after w.sim events covered valued cheap) t.run (t.simulated w events).run _ inv.setup rfl
    balanced rfl,rfl,inv.steps,inv.books,by rw [terminal]; exact inv.records,balanced,inv.trades,
    inv.closes,inv.emitted.simulation own,inv.moves.tail (.simulated posted own)⟩

theorem Stage.after (stage : Stage s time covered' valued' F) (cheap : covered → F.setup.Cheap) {sim : SimulationState}
    (sound : SimSound s.setup sim) : Stage s time covered valued (F.after sim events covered valued cheap) := by
  have terms : F.setup.terms = s.ledger.terms := by rw [stage.setup]; rfl
  refine { stage with sound, cash := fun c => ?_, lots := fun i => ?_, covered := id, valued := id } <;>
    simp only [Frame.after,List.flatMap_append,List.map_append,List.sum_append,posting_entries]
  · rw [stage.cash,terms,stage.base]
    omega
  · rw [stage.lots,terms,stage.base]
    omega

end Simulated

/-! ### Catching up -/

/-- The failures of catching up: an action that cannot settle, or a boundary
    for which too little is vouched for. -/
def Stalls (start : RunState) (time : Nat) (covered valued : Prop) (fault : Fault) (_ : Transition) : Prop :=
  fault.cause ≠ .Resting ∧
    (fault.cause = .Other → start.simulation.clock.now ≤ time → start.DueSettles time →
      ¬ valued ∧ start.due_boundary time ≠ none) ∧
    ∀ e, fault.cause = .Settlement e → ¬ covered ∧ start.due_boundary time ≠ none

section CatchUp
variable {s : RunState} {covered valued : Prop} {time : Nat} {F : Frame} {t : Transition} {fault : Fault}
  {ledger : Ledger}

theorem stalls_overflow (large : Overflows fault t) : Stalls s time covered valued fault t := by
  have cause : fault.cause = .Overflow := large
  refine ⟨?_,fun other => ?_,fun e settling => ?_⟩
  · rw [cause]; simp
  · rw [cause] at other; cases other
  · rw [cause] at settling; cases settling

theorem Stage.stalls (stage : Stage s time covered valued F) (due : s.due_boundary time ≠ none)
    (allowed : F.Allows fault t) : Stalls s time covered valued fault t :=
  ⟨allowed.1,fun other _ _ => ⟨fun vouched => allowed.2.1 other (stage.valued vouched),due⟩,
    fun e settling => ⟨fun vouched => allowed.2.2 e settling (stage.covered vouched),due⟩⟩

/-- The cash of the live orders after the actions due. -/
theorem RunState.Funded.covers (enough : s.Funded time)
    (posted : External s.setup (s.due_entries time) s.ledger ledger) : Covered s.setup ledger s.ownership := by
  intro p c pays buying
  have held := posted.posts.reserved posted.free (.Cash p c)
  simp only [Counter.read] at held
  rw [held,posted.posts.balance]
  exact enough p c pays buying

theorem RunState.Rated.values (rated : s.Rated time)
    (posted : External s.setup (s.due_entries time) s.ledger ledger) : Valued s.setup ledger := by
  refine ⟨fun rate member => ?_,fun p c enrolled held => rated.cash p c enrolled ?_⟩
  · rw [posted.posts.marks]
    exact rated.marks rate member
  · rcases posted.posts.cash_held held with before | ⟨e,member,here⟩
    · exact .inl before
    · cases toLex.injective here
      exact .inr ⟨e,member,rfl,rfl⟩

/-- The boundaries due depend on the calendar and the phases only. -/
theorem due_boundary_congr {run run' : RunState} (calendar : run'.calendar = run.calendar)
    (steps : run'.session_steps = run.session_steps) (time : Nat) : run'.due_boundary time = run.due_boundary time := by
  unfold RunState.due_boundary RunState.next_boundary
  rw [calendar,steps]

theorem cross_boundaries_none (none : t.run.due_boundary time = none) (fuel : Nat) :
    (cross_boundaries time fuel).run t = .ok () t := by
  cases fuel with
  | zero => rfl
  | succ fuel => simp [cross_boundaries,none]

/-- A frame that has caught up: it has posted what was due and crossed the boundaries due. -/
structure Frame.Caught (s : RunState) (time : Nat) (F : Frame) : Prop where
  opened : F.mode = .Open
  below : Below s.simulation F.simulation
  clock : F.simulation.clock = { s.simulation.clock with now := time }
  lifecycle : F.simulation.lifecycle = s.simulation.lifecycle
  actions : F.simulation.scheduled_actions =
    s.simulation.scheduled_actions.dropWhile (fun action => action.effective_at ≤ time)
  posting : F.posting = (s.simulation.due time).map (fun action => .ScheduledActionApplied action.action_id)
  sessions : Crosses s.calendar time s.session_steps F.sessions F.steps
  lapses : Lapses s.simulation F.simulation

/-- A transition that is ready for its input. -/
structure Ready (s : RunState) (time : Nat) (covered valued : Prop) (F : Frame) (t : Transition) : Prop where
  stage : Stage s time covered valued F
  caught : F.Caught s time
  inv : Inv F t
  boundaries : t.run.due_boundary time = none
  unexpired : Unexpired time t.run

/-- The scheduled actions due are posted, and what their cash is vouched for holds after them. -/
theorem catch_up_actions (sane : Sane s) (cheap : covered → s.setup.Cheap) (funds : covered → s.Funded time)
    (rates : valued → s.Rated time) (sweep : Bool)
    (quiet : ∀ payload ∈ payloads, payload.Quiet) :
    Meets (fun t => ({ run := s, payloads } : Transition) = t) (do
        let events ← on_simulation (SimulationState.catch_up time sweep)
        emit (events.map EventPayload.Simulation))
      (fun _ t => ∃ F, Stage s time covered valued F ∧ F.Caught s time ∧ (F.sessions = [] ∧ F.steps = s.session_steps) ∧
        Inv F t ∧ t.run.due_boundary time = s.due_boundary time) (Stalls s time covered valued) := by
  have standing : Standing s.setup s.simulation ⟨s.simulation,s.ledger⟩ := ⟨rfl,sane.sound,.refl _⟩
  have caught := SimulationState.catch_up_meets sane.sound standing time sweep
  rintro _ rfl
  rw [EStateM.run_bind,on_simulation,run_zoom]
  cases ran : (SimulationState.catch_up time sweep).run ⟨s.simulation,s.ledger⟩ with
  | ok events w =>
    obtain ⟨caught,clock⟩ := caught.ok rfl ran
    have posted : External s.setup (s.due_entries time) s.ledger w.ledger := caught.posted
    have by_events := caught.posted
    rw [← caught.entries] at by_events
    have started : Inv (s.frame sane.valid time) { run := s, payloads } := Core.emit (sane.inv time) quiet
    have inv := started.simulated cheap by_events caught.own (fun vouched => (funds vouched).covers posted)
      (fun vouched => (rates vouched).values posted)
    exact ⟨_,(sane.stage time).after cheap caught.standing.sound,
      ⟨rfl,caught.standing.below,clock,caught.lifecycle,caught.actions,caught.posting,.done,caught.lapses⟩,⟨rfl,rfl⟩,inv,
      rfl⟩
  | error e w =>
    have only := caught.error rfl ran
    refine ⟨?_,fun other in_time settles => ?_,fun d settling => ?_⟩
    · unfold Fault.simulation; split_ifs <;> simp
    · have large : e = .ArithmeticOverflow ∨ e = .Ledger .ArithmeticOverflow := only in_time settles
      rw [Fault.simulation,if_pos large] at other
      cases other
    · unfold Fault.simulation at settling
      simp only at settling
      split_ifs at settling

/-- Catching up taken apart: the scheduled actions, the boundaries, the expiries. -/
theorem catch_up_pieces {sweep : Bool} {u : Transition} (ran : (catch_up time sweep).run t = .ok () u) :
    ∃ acted crossed, (do
      let events ← on_simulation (SimulationState.catch_up time sweep)
      emit (events.map EventPayload.Simulation) : Engine Unit).run t = .ok () acted ∧
      (cross_boundaries time acted.run.boundaries_left).run acted = .ok () crossed ∧
      (expire_due time).run crossed = .ok () u := by
  simp only [catch_up,bind_eq_ok,get_eq_ok] at ran ⊢
  obtain ⟨events,_,simulates,_,acted,emits,_,_,⟨rfl,rfl⟩,_,crossed,crosses,expires⟩ := ran
  exact ⟨_,crossed,⟨events,_,simulates,emits⟩,crosses,expires⟩

/-- Every boundary due is crossed; where none is due, nothing can fail. -/
theorem catch_up_boundaries (stage : Stage s time covered valued F) (caught : F.Caught s time)
    (fresh : F.sessions = [] ∧ F.steps = s.session_steps) (inv : Inv F t)
    (same : t.run.due_boundary time = s.due_boundary time) :
    Meets (fun u => t = u) (cross_boundaries time t.run.boundaries_left)
      (fun _ u => ∃ F, Stage s time covered valued F ∧ F.Caught s time ∧ Inv F u ∧ u.run.due_boundary time = none)
      (Stalls s time covered valued) := by
  by_cases due : s.due_boundary time = none
  · rintro _ rfl
    rw [cross_boundaries_none (same.trans due)]
    exact ⟨F,stage,caught,inv,same.trans due⟩
  · have in_time : time ≤ F.now := by rw [stage.now]
    have crosses := (cross_boundaries_meets time _ F caught.opened in_time).at_state ⟨inv,le_refl _⟩
    refine crosses.imp (fun _ holds => holds) (fun _ u holds => ?_) fun _ _ allowed => stage.stalls due allowed
    obtain ⟨steps,events,crossed,inv,none⟩ := holds
    have calendar : F.setup.calendar = s.calendar := by rw [stage.setup]; rfl
    rw [calendar,fresh.2] at crossed
    rw [fresh.1,List.nil_append] at inv
    exact ⟨{ F with steps, sessions := events },{ stage with },{ caught with sessions := crossed },inv,none⟩

theorem catch_up_expiries (time : Nat) :
    Meets (fun t => ∃ F, Stage s time covered valued F ∧ F.Caught s time ∧ Inv F t ∧ t.run.due_boundary time = none)
      (expire_due time) (fun _ t => ∃ F, Ready s time covered valued F t) (Stalls s time covered valued) := by
  rintro t ⟨F,stage,caught,inv,none⟩
  refine (expire_due_meets time).imp (fun _ holds => holds) (fun _ u holds => ?_) (fun _ _ large => stalls_overflow large) t inv
  obtain ⟨later,unexpired⟩ := holds
  refine ⟨F,stage,caught,later,?_,unexpired⟩
  exact (due_boundary_congr (by rw [later.calendar,inv.calendar]) (by rw [later.steps,inv.steps]) time).trans none

/-- What a transition has done once it has caught up with the time of its input. -/
theorem catch_up_meets (sane : Sane s) (cheap : covered → s.setup.Cheap) (funds : covered → s.Funded time)
    (rates : valued → s.Rated time) (sweep : Bool)
    (quiet : ∀ payload ∈ payloads, payload.Quiet) :
    Meets (fun t => ({ run := s, payloads } : Transition) = t) (catch_up time sweep)
      (fun _ t => ∃ F, Ready s time covered valued F t) (Stalls s time covered valued) := by
  have whole := (catch_up_actions sane cheap funds rates sweep quiet).bind fun _ =>
    get_meets fun t ⟨F,stage,caught,fresh,inv,same⟩ =>
      (catch_up_boundaries stage caught fresh inv same).bind fun _ => catch_up_expiries time
  rw [bind_assoc] at whole
  exact whole

end CatchUp

end Bunting
