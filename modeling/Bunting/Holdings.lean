import Bunting.Arrivals

/-!
The cost of the holdings of a run. Trades, tenders and negotiations keep the
sign of every cost. A facility job that completes gives lots the cost of what
it took, whatever the holding they come into: into a short one they come with
the wrong sign.
-/

namespace Bunting
open Stateful

section Moves
variable {setup : Setup} {base : SimulationState} {now : Nat} {a b : Mode × Transition}

def Transition.posting (t : Transition) : List SimulationEvent := t.payloads.filterMap EventPayload.posting

theorem Move.posting (move : Move setup base now a b) : a.2.posting <+: b.2.posting := move.payloads.filterMap _

theorem Moves.posting (moves : Moves setup base now a b) : a.2.posting <+: b.2.posting := moves.payloads.filterMap _

theorem entries_of_silent {t : Transition} {w : World} {events : List SimulationEvent}
    (silent : (t.simulated w events).posting = t.posting) (terms : OrdMap InstrumentId InstrumentTerms) :
    events.flatMap (SimulationEvent.entries terms base) = [] := by
  have none : (events.map EventPayload.Simulation).filterMap EventPayload.posting = [] := by
    have same : t.posting ++ (events.map EventPayload.Simulation).filterMap EventPayload.posting = t.posting :=
      List.filterMap_append.symm.trans silent
    simpa using same
  rw [List.filterMap_map,List.filterMap_eq_nil_iff] at none
  rw [← posting_entries]
  have filtered : events.filter SimulationEvent.posts = [] := by
    refine List.filter_eq_nil_iff.mpr fun event member posts => ?_
    have := none event member
    simp [EventPayload.posting,posts] at this
  rw [filtered]
  rfl

theorem Move.signed (move : Move setup base now a b) (silent : b.2.posting = a.2.posting)
    (signed : a.2.run.ledger.Signed) : b.2.run.ledger.Signed := by
  cases move with
  | touched _ | emitted _ | executed _ _ | uncrossed _ _ _ | called _ | completed _ _ | rested _ _ _ _ _ _ | switched _
  | closed _ _ | passed _ _ _ _ | announced _ => exact signed
  | simulated posted _ =>
    rw [entries_of_silent silent] at posted
    exact posted.signed (receives_of_none (by simp) _) signed
  | canceled _ _ _ _ _ closes => exact signed.change_open closes
  | filled _ dealt =>
    obtain ⟨_,_,_,_,_,_,settles,_⟩ := dealt.settled
    exact signed.settle settles
  | accepted _ _ _ opens => exact signed.change_open opens
  | dropped _ _ closes => exact signed.change_open closes
  | marked marks => exact ⟨signed.terms,signed.positions⟩

/-- Moves that post nothing keep the sign of every cost. -/
theorem Moves.signed (moves : Moves setup base now a b) (silent : b.2.posting = a.2.posting)
    (signed : a.2.run.ledger.Signed) : b.2.run.ledger.Signed := by
  induction moves with
  | refl => exact signed
  | @tail middle last first move ih =>
    have earlier := Moves.posting first
    have later := move.posting
    have same : middle.2.posting = a.2.posting := by
      refine (earlier.eq_of_length_le ?_).symm
      rw [← silent]
      exact later.length_le
    exact move.signed (silent.trans same.symm) (ih same)

theorem Inv.signed {F : Frame} {u : Transition} (inv : Inv F u) (posted : F.start.posting = F.posting)
    (signed : F.start.run.ledger.Signed) : u.run.ledger.Signed :=
  inv.moves.signed (inv.emitted.posting.trans posted.symm) signed

end Moves

section CatchUp
variable {s : RunState} {time : Nat} {acted crossed caught : Transition} {payloads : List EventPayload} {sweep : Bool}

theorem actions_posted (sane : Sane s) (acts : (do
      let events ← on_simulation (SimulationState.catch_up time sweep)
      emit (events.map EventPayload.Simulation) : Engine Unit).run { run := s, payloads } = .ok () acted) :
    External s.setup (s.due_entries time) s.ledger acted.run.ledger := by
  simp only [on_simulation,emit,returned] at acts
  obtain ⟨events,_,⟨w,ran,rfl⟩,rfl⟩ := acts
  have standing : Standing s.setup s.simulation ⟨s.simulation,s.ledger⟩ := ⟨rfl,sane.sound,.refl _⟩
  exact ((SimulationState.catch_up_meets sane.sound standing time sweep).ok rfl ran).1.posted

/-- Catching up keeps the sign of every cost where no job completes into a short holding. -/
theorem catch_up_signed (sane : Sane s) (quiet : ∀ payload ∈ payloads, payload.Quiet)
    (ran : (catch_up time sweep).run { run := s, payloads } = .ok () caught)
    (receives : Receives (s.due_entries time) s.ledger) (signed : s.ledger.Signed) : caught.run.ledger.Signed := by
  obtain ⟨acted,crossed,acts,crosses,expires⟩ := catch_up_pieces ran
  have none : False → s.setup.Cheap := False.elim
  obtain ⟨F,stage,due,fresh,inv,same⟩ := (catch_up_actions sane none False.elim False.elim sweep quiet).ok rfl acts
  have after_actions := (actions_posted sane acts).signed receives signed
  have rebased : (F.rebase acted).mode = .Open := rfl
  obtain ⟨_,_,_,passed,_⟩ := (cross_boundaries_meets time _ (F.rebase acted) rebased (by rw [← stage.now]; rfl)).ok
    ⟨inv.rebase,le_rfl⟩ crosses
  have after_boundaries := passed.signed inv.emitted.posting after_actions
  have expired := ((expire_due_meets time).ok passed.rebase expires).1
  exact expired.signed passed.emitted.posting after_boundaries

/-- The lots of every position are the same. -/
def SameLots (ledger ledger' : Ledger) : Prop :=
  ∀ p i, (ledger'.position_of p i).quantity = (ledger.position_of p i).quantity

theorem expire_loop_lots (now fuel : Nat) {ledger : Ledger} :
    Meets (fun t : Transition => SameLots ledger t.run.ledger) (expire_loop now fuel)
      (fun _ t => SameLots ledger t.run.ledger) AnyError := by
  induction fuel with
  | zero => exact pure_meets fun _ holds => holds
  | succ fuel ih =>
    refine Meets.of_ok fun u _ v same ran => ?_
    simp only [expire_loop,returned] at ran
    split at ran
    · cases ran
      exact same
    · split_ifs at ran
      · cases ran
        exact same
      · simp only [returned,touch] at ran
        obtain ⟨_,_,_,canceled,ran⟩ := ran
        obtain ⟨_,_,_,_,_,_,_,_,_,closes,rfl⟩ := cancel_run canceled
        obtain ⟨_,_,_,_,posts⟩ := Ledger.change_open_posts closes
        refine ih.ok (fun p i => ?_) ran
        refine (posts.quantity p i).trans (Eq.trans ?_ (same p i))
        split_ifs <;> simp [Entry.opening]

theorem expire_due_lots {now : Nat} {t u : Transition} (ran : (expire_due now).run t = .ok () u) :
    SameLots t.run.ledger u.run.ledger := by
  simp only [expire_due,returned] at ran
  exact (expire_loop_lots now _).ok (fun _ _ => rfl) ran

/-- What is due later can be received after catching up, unless a boundary lets orders trade. -/
theorem catch_up_receives (sane : Sane s) {later : List Entry}
    (ran : (catch_up time sweep).run { run := s, payloads } = .ok () caught)
    (receives : Receives (s.due_entries time ++ later) s.ledger) (idle : s.due_boundary time = none) :
    Receives later caught.run.ledger := by
  obtain ⟨acted,crossed,acts,crosses,expires⟩ := catch_up_pieces ran
  have posted := actions_posted sane acts
  have still : acted.run.due_boundary time = none := by
    simp only [on_simulation,emit,returned] at acts
    obtain ⟨events,_,⟨w,_,rfl⟩,rfl⟩ := acts
    exact idle
  rw [cross_boundaries_none still] at crosses
  cases crosses
  exact (receives.rest posted.posts).congr (expire_due_lots expires)

end CatchUp

section Commands
variable {setup : Setup} {base : SimulationState} {w w' : World} {events : List SimulationEvent}
  {context : SimulationContext} {actor : ParticipantId} {time : Nat}

theorem receives_of_still (still : events.all (fun event => !event.moves) = true)
    (terms : OrdMap InstrumentId InstrumentTerms) (ledger : Ledger) :
    Receives (events.flatMap (SimulationEvent.entries terms base)) ledger := by
  refine receives_of_none (fun e member => ?_) ledger
  obtain ⟨event,inside,here⟩ := List.mem_flatMap.mp member
  have quiet := List.all_eq_true.mp still event inside
  cases event <;> simp only [SimulationEvent.entries,List.not_mem_nil,List.mem_singleton] at here
  case FineApplied => rw [here]
  all_goals cases quiet

/-- A command keeps the sign of every cost, unless it advances past a job that completes into a short holding. -/
theorem Does.signed {command : SimulationCommand} (sound : SimSound setup base) (standing : Standing setup base w)
    (does : Does context actor time w command events w')
    (receives : Receives ((w.sim.due (w.sim.clock.now + command.jump w.sim.clock.step_ns)).flatMap
      (base.entries setup.terms)) w.ledger) (signed : w.ledger.Signed) : w'.ledger.Signed := by
  have posted := does.posted sound standing
  by_cases still : command.moves = false
  · exact posted.posted.signed (receives_of_still (posted.still still) _ _) signed
  cases does with
  | advanced catches =>
    obtain ⟨caught,_⟩ := (SimulationState.catch_up_meets sound standing _ true).ok rfl catches
    exact caught.posted.signed receives signed
  | tender_decided _ _ _ _ decided =>
    cases decided with
    | accepted fill => exact signed.settle fill
    | declined => exact signed
  | otc_decided _ _ _ _ decided =>
    cases decided with
    | accepted fill => exact signed.settle fill
    | dropped _ => exact signed
  | managed own => cases command <;> first | exact absurd rfl still | cases own
  | _ => exact absurd rfl still

end Commands

/-- What is due between the time of an input and where its clock ends. -/
def Input.later_entries (s : RunState) (input : Input) : List Entry :=
  ((s.simulation.scheduled_actions.dropWhile (fun action => action.effective_at ≤ input.logical_time)).takeWhile
    (fun action => action.effective_at ≤ input.logical_time + input.jump s)).flatMap
      (s.simulation.entries s.ledger.terms)

/-- No job that completes in the step puts out into a short holding, and after a boundary that lets orders trade no
    later one puts out lots. -/
def Input.KeepsLong (s : RunState) (input : Input) : Prop :=
  Receives (s.due_entries (input.logical_time + input.jump s)) s.ledger ∧
    (s.due_boundary input.logical_time = none ∨ ∀ e ∈ input.later_entries s, e.lots.quantity ≤ 0)

instance (s : RunState) (input : Input) : Decidable (input.KeepsLong s) := inferInstanceAs (Decidable (_ ∧ _))

theorem SimulationState.due_split (sim : SimulationState) {time after : Nat} (later : time ≤ after) :
    sim.due after = sim.due time ++
      (sim.scheduled_actions.dropWhile (fun action => action.effective_at ≤ time)).takeWhile
        (fun action => action.effective_at ≤ after) := by
  unfold due
  induction sim.scheduled_actions with
  | nil => rfl
  | cons action rest ih =>
    by_cases early : action.effective_at ≤ time
    · simp [early,early.trans later,ih]
    · simp [early]

section Steps
variable {s s' : RunState} {applied : Applied} {caught t : Transition} {input : Input}

theorem Input.due_entries_split (s : RunState) (input : Input) :
    s.due_entries (input.logical_time + input.jump s) = s.due_entries input.logical_time ++ input.later_entries s := by
  unfold RunState.due_entries Input.later_entries
  rw [s.simulation.due_split (Nat.le_add_right _ (input.jump s)),List.flatMap_append]

theorem Input.KeepsLong.due (keeps : input.KeepsLong s) : Receives (s.due_entries input.logical_time) s.ledger := by
  have receives := keeps.1
  rw [Input.due_entries_split] at receives
  exact receives.first

theorem Input.KeepsLong.later {sweep : Bool} {payloads : List EventPayload} (keeps : input.KeepsLong s) (sane : Sane s)
    (ran : (catch_up input.logical_time sweep).run { run := s, payloads } = .ok () caught) :
    Receives (input.later_entries s) caught.run.ledger := by
  obtain ⟨receives,idle | none⟩ := keeps
  · rw [Input.due_entries_split] at receives
    exact catch_up_receives sane ran receives idle
  · exact receives_of_none none _

theorem simulate_run {request : SimulationCommandRequest} (ran : (simulate request).run caught = .ok () t) :
    ∃ events w, Ran request caught events w ∧ (expire_due w.sim.clock.now).run (caught.simulated w events) = .ok () t := by
  simp only [simulate,on_simulation,emit,returned] at ran
  obtain ⟨events,_,⟨w,runs,rfl⟩,expires⟩ := ran
  exact ⟨events,w,runs,expires⟩

/-- A step that completes no job into a short holding keeps the sign of every cost. -/
theorem Input.signed (sane : Sane s) (ran : input.step.run s = .ok applied s') (keeps : input.KeepsLong s)
    (signed : s.ledger.Signed) : s'.ledger.Signed := by
  obtain ⟨F,caught,t,halves⟩ := Input.halves sane ran
  have ready := halves.ready
  have after := catch_up_signed sane (input.opens_quiet s) halves.catches keeps.due signed
  have receives := keeps.later sane halves.catches
  obtain ⟨_,_,_,_,_,left⟩ := halves.stepped.leaves
  rw [left]
  change t.run.ledger.Signed
  cases halves.anew with
  | kept _ kept =>
    obtain ⟨_,_,inv⟩ := kept
    exact inv.signed ready.inv.emitted.posting after
  | @ran request _ _ performs staged =>
    have runs : (simulate request).run caught = .ok () t := by
      unfold perform_simulation at performs
      split at performs
      · next cancels => rw [cancels] at staged; cases staged
      · exact performs
    obtain ⟨events,w,ran,expires⟩ := simulate_run runs
    have standing := ready.standing sane
    have posted := Ran.posted ready.inv standing ran
    have inv := ready.inv.simulated False.elim posted.posted posted.own False.elim False.elim
    have expired := ((expire_due_meets w.sim.clock.now).ok inv.rebase expires).1
    refine expired.signed inv.emitted.posting ?_
    have stands : Standing F.setup F.base ⟨caught.run.simulation,caught.run.ledger⟩ :=
      ⟨ready.inv.balanced.accounts.terms,by rw [ready.inv.simulation]; exact standing.sound,standing.below⟩
    refine (SimulationState.apply_does ran).signed standing.base stands ?_ after
    simp only [ready.inv.simulation,ready.caught.clock,SimulationState.due,ready.caught.actions,ready.stage.base,
      ready.stage.setup]
    exact receives

end Steps

section Runs
variable {scenario : ScenarioDefinition} {s : RunState}

theorem Opened.signed {start : RunState} (opened : Opened scenario start) : start.ledger.Signed := by
  have priced : ∀ i D, scenario.instruments.get? i = some D → D.Priced := fun i D found =>
    opened.checked.instruments (i,D) (OrdMap.get?_eq_some_iff.mp found)
  exact ⟨fun found => opened.valid.multiplier found,opened.seeded.signed priced⟩

/-- In every run in which no job completes into a short holding, the cost of every position has its sign, and a flat
    position has none. -/
theorem costs_have_the_sign_of_their_positions (reachable : ReachableWhere (fun s input => input.KeepsLong s) scenario s)
    (participant : ParticipantId) (instrument : InstrumentId) :
    ((s.ledger.position_of participant instrument).quantity = 0 →
      (s.ledger.position_of participant instrument).cost_basis = 0) ∧
    (0 < (s.ledger.position_of participant instrument).quantity →
      0 ≤ (s.ledger.position_of participant instrument).cost_basis) ∧
    ((s.ledger.position_of participant instrument).quantity < 0 →
      (s.ledger.position_of participant instrument).cost_basis ≤ 0) := by
  have signed : s.ledger.Signed := reachable.keeps (fun start opened => opened.signed)
    fun _ _ _ _ before signed keeps ran => Input.signed before.sane ran keeps signed
  obtain ⟨flat,long,short,_⟩ := signed.positions participant instrument
  exact ⟨flat,long,short⟩

/-- The small market with a facility that makes the sole instrument from nothing. -/
def sample_works : ScenarioDefinition :=
  { sample with simulation := { facilities := OrdMap.ofList [(1,⟨1,100,none,some 1⟩)] } }

theorem costs_have_the_sign_of_a_job : ∃ s, ReachableWhere (fun s input => input.KeepsLong s) sample_works s ∧
    (s.ledger.position_of 2 1).quantity = 8 ∧ 0 ≤ (s.ledger.position_of 2 1).cost_basis := by
  obtain ⟨s,reachable,long⟩ := @play_reaches_where sample_works (fun s input => input.KeepsLong s) sample_codec
    [place 0 0 7 1 .Sell 5 (.Limit 10),place 1 1 8 2 .Buy 5 (.Limit 10),ask 2 2 1 (.ScheduleFacilityJob 1 2 1 3 5),
      ask 3 9 1 .ClockTick] (fun s => (s.ledger.position_of 2 1).quantity = 8) (by decide +kernel)
  exact ⟨s,reachable,long,(costs_have_the_sign_of_their_positions reachable 2 1).2.1 (by rw [long]; decide)⟩

/-- A job that completes into a short holding of the same size leaves a flat position with a cost. -/
theorem flat_position_with_a_cost : ∃ s, Reachable sample_works s ∧ (s.ledger.position_of 1 1).quantity = 0 ∧
    (s.ledger.position_of 1 1).cost_basis = -50 := by
  obtain ⟨start,history,s,starts,runs,held⟩ := @play_reaches sample_works sample_codec
    [place 0 0 7 1 .Sell 5 (.Limit 10),place 1 1 8 2 .Buy 5 (.Limit 10),ask 2 2 1 (.ScheduleFacilityJob 1 1 1 5 5),
      ask 3 9 1 .ClockTick] (fun _ s => (s.ledger.position_of 1 1).quantity = 0 ∧
        (s.ledger.position_of 1 1).cost_basis = -50) (by decide +kernel)
  exact ⟨s,⟨start,history,starts,runs⟩,held⟩

end Runs

end Bunting
