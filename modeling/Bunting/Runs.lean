import Bunting.Opening

/-!
Whole runs. A step is a command or a simulation request that returned; a run is
any number of steps from the opening state of a scenario, with its history of
inputs and answers.
-/

namespace Bunting
open Stateful

/-! ### Steps -/

inductive Input
  | Command (command : Command)
  | Request (request : SimulationCommandRequest)

namespace Input

def logical_time : Input → Nat
  | .Command command => command.logical_time
  | .Request request => request.logical_time

def submission : Input → Option SubmitOrder
  | .Command command => command.payload.order
  | .Request _ => none

/-- Order submissions, cancels, kill switches, clock ticks and mass cancels. -/
def order_flow : Input → Bool
  | .Command _ => true
  | .Request request => request.payload.direct

/-- A transition for the input, on the run as it is. -/
def step : Input → EStateM ApplyError RunState Applied
  | .Command command => RunState.apply command
  | .Request request => RunState.apply_simulation request

/-- Where a transition for the input starts: a clock tick announces itself. -/
def opens : Input → RunState → Transition
  | .Command _,s => { run := s }
  | .Request request,s => { run := s, payloads :=
    if request.payload = .ClockTick ∧ request.logical_time > s.simulation.clock.now then
      [.Simulation (.ClockAdvanced s.simulation.clock.now request.logical_time)] else [] }

/-- A clock tick sweeps what its own time made due. -/
def ticks : Input → Bool
  | .Command _ => false
  | .Request request => request.payload = .ClockTick

end Input

section Boundary
variable {s s' : RunState} {applied : Applied} {m : Engine Applied} {f : EStateM ApplyError RunState Applied}

/-- In place or on a copy, the transition is the same. -/
theorem boundary_eq (either : f = staged m ∨ f = in_place m) :
    match m.run { run := s } with
    | .ok applied t => f.run s = .ok applied t.run
    | .error fault _ => ∃ e s', f.run s = .error e s' ∧ e.fault = fault := by
  split
  · rename_i applied t made
    rcases either with rfl | rfl
    · rw [EStateM.run,staged,made]
    · rw [EStateM.run,in_place,made]
  · rename_i fault t failed
    rcases either with rfl | rfl
    · exact ⟨.Unchanged fault,s,by rw [EStateM.run,staged,failed],rfl⟩
    · exact ⟨.Poisoned fault,t.run,by rw [EStateM.run,in_place,failed],rfl⟩

theorem boundary_ok (either : f = staged m ∨ f = in_place m)
    (ran : f.run s = .ok applied s') : ∃ t, m.run { run := s } = .ok applied t ∧ t.run = s' := by
  have same := @boundary_eq s m f either
  split at same
  · next made => cases ran.symm.trans same; exact ⟨_,made,rfl⟩
  · obtain ⟨_,_,failed,_⟩ := same
    cases ran.symm.trans failed

theorem unchanged_eq_ok {α : Type} {x : Except Fault α} {a : α} :
    (unchanged x).run s = .ok a s' ↔ x = .ok a ∧ s = s' := by
  cases x <;> simp [unchanged,EStateM.run]

end Boundary

/-- How a command that returned ran. -/
structure Applies (command : Command) (s : RunState) (applied : Applied) (s' : RunState) (caught t : Transition) : Prop
    extends Finished t (s.sequence + 1) applied s' where
  preflight : s.run_id = command.run_id ∧ s.sequence = command.expected_sequence
  in_time : s.simulation.clock.now ≤ command.logical_time
  catches : (catch_up command.logical_time false).run { run := s } = .ok () caught
  performs : ∃ key answer, s.resolve_listing command.payload = .ok key ∧
    (perform command key).run caught = .ok answer t ∧ applied.accepted = answer.accepted ∧
    applied.reject_code = answer.reject_code

section Apply
variable {s s' : RunState} {applied : Applied}

theorem preflight_ok {run_id : RunId} {expected next : Nat} (ran : s.preflight run_id expected = .ok next) :
    s.run_id = run_id ∧ s.sequence = expected ∧ next = s.sequence + 1 := by
  simp only [RunState.preflight,returned] at ran
  obtain ⟨same,fits⟩ := ran
  simp only [not_or,not_not] at same
  exact ⟨same.1,same.2,to_u64_some fits⟩

theorem apply_ok {command : Command} (ran : (RunState.apply command).run s = .ok applied s') :
    ∃ caught t, Applies command s applied s' caught t := by
  simp only [RunState.apply,returned,unchanged_eq_ok] at ran
  obtain ⟨next,checks,key,resolves,late,ran⟩ := ran
  obtain ⟨u,made,rfl⟩ := boundary_ok (ite_eq_or_eq ..) ran
  simp only [apply_validated,returned] at made
  obtain ⟨caught,catches,answer,t,performs,finishes⟩ := made
  obtain ⟨finished,accepted,code⟩ := finish_ok finishes
  obtain ⟨run_id,sequence,rfl⟩ := preflight_ok checks
  exact ⟨caught,t,finished,⟨run_id,sequence⟩,by omega,catches,⟨key,answer,resolves,performs,accepted,code⟩⟩

end Apply

/-- How a simulation request that returned ran. -/
structure Simulates (request : SimulationCommandRequest) (s : RunState) (applied : Applied) (s' : RunState)
    (announced caught t : Transition) : Prop extends Finished t (s.sequence + 1) applied s' where
  preflight : s.run_id = request.run_id ∧ s.sequence = request.expected_sequence
  in_time : s.simulation.clock.now ≤ request.logical_time
  active : request.payload = .ClockTick → s.simulation.lifecycle = .Active
  announces : announced = { run := s, payloads :=
    if request.payload = .ClockTick ∧ request.logical_time > s.simulation.clock.now then
      [.Simulation (.ClockAdvanced s.simulation.clock.now request.logical_time)] else [] }
  catches : (catch_up request.logical_time (request.payload = .ClockTick)).run announced = .ok () caught
  performs : (perform_simulation request).run caught = .ok () t
  accepted : applied.accepted = true

theorem apply_simulation_ok {s s' : RunState} {applied : Applied} {request : SimulationCommandRequest}
    (ran : (RunState.apply_simulation request).run s = .ok applied s') :
    ∃ announced caught t, Simulates request s applied s' announced caught t := by
  simp only [RunState.apply_simulation,returned,unchanged_eq_ok] at ran
  obtain ⟨next,checks,late,idle,ran⟩ := ran
  obtain ⟨u,made,rfl⟩ := boundary_ok (ite_eq_or_eq ..).symm ran
  simp only [apply_simulation_validated,announce_tick,emit,returned] at made
  obtain ⟨caught,catches,t,performs,finishes⟩ := made
  obtain ⟨finished,accepted,_⟩ := finish_ok finishes
  obtain ⟨run_id,sequence,rfl⟩ := preflight_ok checks
  exact ⟨_,caught,t,finished,⟨run_id,sequence⟩,by omega,fun tick => by by_contra other; exact idle ⟨tick,other⟩,rfl,catches,
    performs,accepted⟩

/-! ### What a step leaves -/

/-- A transition from the run has ended in the invariant; the order submitted, if any, may have been taken. -/
def Ended (start : RunState) (input : Input) (t : Transition) : Prop :=
  ∃ F, Stage start input.logical_time False False F ∧ Inv F t ∧
    (F.mode = .Open ∨ input.submission.map Mode.Taken = some F.mode)

/-- What a step from a sane run did: its transition ended in the invariant, and was committed. -/
structure Stepped (s : RunState) (input : Input) (applied : Applied) (s' : RunState) (t : Transition) : Prop
    extends Finished t (s.sequence + 1) applied s' where
  ended : Ended s input t

section Step
variable {s s' : RunState} {applied : Applied} {caught t : Transition} {F : Frame} {input : Input}

theorem Stage.taking {time : Nat} {covered valued : Prop} (stage : Stage s time covered valued F) (mode : Mode) :
    Stage s time False False (F.shift mode).doubt :=
  { stage with covered := False.elim, valued := False.elim }

theorem Input.opens_eq (input : Input) (s : RunState) :
    input.opens s = { run := s, payloads := (input.opens s).payloads } := by
  cases input <;> rfl

theorem Input.opens_quiet (input : Input) (s : RunState) : ∀ payload ∈ (input.opens s).payloads, payload.Quiet := by
  cases input with
  | Command => simp [Input.opens]
  | Request request =>
    rw [Input.opens]
    split_ifs
    · simp [EventPayload.Quiet,SimulationEvent.posts,SimulationEvent.session]
    · simp

theorem Ready.standing {time : Nat} {covered valued : Prop} (ready : Ready s time covered valued F t)
    (sane : Sane s) : F.Standing t where
  base := by rw [ready.stage.setup,ready.stage.base]; exact sane.sound
  sound := by rw [ready.stage.setup]; exact ready.stage.sound
  below := by rw [ready.inv.simulation,ready.stage.base]; exact ready.caught.below

/-- What was asked for was done from a frame: a request that takes part in the simulation ran, and anything else kept it. -/
inductive Goes (F : Frame) (caught t : Transition) : Input → Prop
  | kept {input : Input} (flow : input.order_flow = true) (kept : Kept F input.submission t) : Goes F caught t input
  | ran {request : SimulationCommandRequest} {events : List SimulationEvent} {w : World}
      (performs : (perform_simulation request).run caught = .ok () t) (staged : request.payload.direct = false)
      (ran : Ran request caught events w) (sound : SimSound F.setup w.sim)
      (inv : Inv (F.after w.sim events False False F.vacuous) t) (unexpired : Unexpired w.sim.clock.now t.run) :
      Goes F caught t (.Request request)

/-- The two halves of a step: it caught up with what was due, and went on to what was asked for. -/
structure Halves (s : RunState) (input : Input) (applied : Applied) (s' : RunState) (F : Frame) (caught t : Transition) :
    Prop extends Finished t (s.sequence + 1) applied s' where
  catches : (catch_up input.logical_time input.ticks).run { run := s, payloads := (input.opens s).payloads } = .ok () caught
  ready : Ready s input.logical_time False False F caught
  goes : Goes F caught t input
  anew : Goes (F.rebase caught) caught t input

theorem Applies.halves {command : Command} (applies : Applies command s applied s' caught t) (sane : Sane s) :
    ∃ F, Halves s (.Command command) applied s' F caught t := by
  obtain ⟨F,ready⟩ := (catch_up_meets sane False.elim False.elim False.elim false
    ((Input.Command command).opens_quiet s)).ok rfl applies.catches
  have goes {G : Frame} (opened : G.mode = .Open) (now : G.now = command.logical_time) (inv : Inv G caught) :
      Goes G caught t (.Command command) := by
    obtain ⟨key,answer,resolves,performs,_⟩ := applies.performs
    exact .kept rfl ((perform_meets opened inv now resolves).ok rfl performs).1
  exact ⟨F,applies.toFinished,applies.catches,ready,goes ready.caught.opened ready.stage.now ready.inv,
    goes rfl ready.stage.now ready.inv.rebase⟩

theorem Simulates.halves {request : SimulationCommandRequest} {announced : Transition}
    (simulates : Simulates request s applied s' announced caught t) (sane : Sane s) :
    ∃ F, Halves s (.Request request) applied s' F caught t := by
  have catches := simulates.catches
  rw [simulates.announces] at catches
  obtain ⟨F,ready⟩ := (catch_up_meets sane False.elim False.elim False.elim _
    ((Input.Request request).opens_quiet s)).ok rfl catches
  have goes {G : Frame} (inv : Inv G caught) (standing : G.Standing caught) : Goes G caught t (.Request request) := by
    rcases (perform_simulation_meets inv standing).ok rfl simulates.performs with
      ⟨direct,inv,_⟩ | ⟨staged,events,w,ran,sound,inv,unexpired⟩
    · exact .kept direct inv.kept
    · exact .ran simulates.performs staged ran sound inv unexpired
  have standing := ready.standing sane
  exact ⟨F,simulates.toFinished,catches,ready,goes ready.inv standing,
    goes ready.inv.rebase { standing with }⟩

theorem Input.halves (sane : Sane s) (ran : input.step.run s = .ok applied s') :
    ∃ F caught t, Halves s input applied s' F caught t := by
  cases input with
  | Command command =>
    obtain ⟨caught,t,applies⟩ := apply_ok ran
    obtain ⟨F,halves⟩ := applies.halves sane
    exact ⟨F,caught,t,halves⟩
  | Request request =>
    obtain ⟨announced,caught,t,simulates⟩ := apply_simulation_ok ran
    obtain ⟨F,halves⟩ := simulates.halves sane
    exact ⟨F,caught,t,halves⟩

theorem Halves.stepped (halves : Halves s input applied s' F caught t) :
    Stepped s input applied s' t := by
  refine ⟨halves.toFinished,?_⟩
  have ready := halves.ready
  cases halves.goes with
  | kept _ kept =>
    obtain ⟨mode,taken,inv⟩ := kept
    rw [ready.caught.opened] at taken
    exact ⟨_,ready.stage.taking mode,inv,taken⟩
  | ran _ _ _ sound inv _ =>
    rw [ready.stage.setup] at sound
    exact ⟨_,ready.stage.after False.elim sound,inv,.inl ready.caught.opened⟩

theorem Input.stepped (sane : Sane s) (ran : input.step.run s = .ok applied s') :
    ∃ t, Stepped s input applied s' t := by
  obtain ⟨_,_,t,halves⟩ := Input.halves sane ran
  exact ⟨t,halves.stepped⟩

theorem Stepped.sane (stepped : Stepped s input applied s' t) : Sane s' := by
  obtain ⟨market,market_by_listing,rfl⟩ := stepped.commits
  obtain ⟨F,stage,inv,_⟩ := stepped.ended
  exact inv.committed (by rw [inv.simulation,stage.setup]; exact stage.sound) _ _ _

/-- Of the run at the end of a step the commit changes the records, the counters and the market. -/
theorem Stepped.leaves (stepped : Stepped s input applied s' t) :
    ∃ ownership retired live_orders market market_by_listing, s' = { t.run with
      ownership, retired, live_orders
      simulation := { t.run.simulation with market, market_by_listing }
      sequence := s.sequence + 1
      event_sequence := t.run.event_sequence + t.payloads.length } := by
  obtain ⟨market,market_by_listing,rfl⟩ := stepped.commits
  obtain ⟨_,_,_,same,_⟩ := RunState.committed_eq t (s.sequence + 1) market market_by_listing
  exact ⟨_,_,_,_,_,same⟩

theorem Stepped.setup (stepped : Stepped s input applied s' t) : s'.setup = s.setup := by
  obtain ⟨F,stage,inv,_⟩ := stepped.ended
  obtain ⟨_,_,_,_,_,rfl⟩ := stepped.leaves
  exact inv.setup.trans stage.setup

end Step

/-! ### Runs -/

/-- Steps that returned, from a state on, with the history of inputs and answers. -/
inductive Runs (start : RunState) : List (Input × Applied) → RunState → Prop
  | nil : Runs start [] start
  | step {history s s' input applied} (before : Runs start history s) (ran : input.step.run s = .ok applied s') :
      Runs start (history ++ [(input,applied)]) s'

def Starts (scenario : ScenarioDefinition) (run : RunState) : Prop :=
  ∃ codec run_id iteration_id, RunState.from_scenario codec run_id iteration_id scenario = .ok run

/-- The states of the runs of a scenario. -/
def Reachable (scenario : ScenarioDefinition) (s : RunState) : Prop :=
  ∃ start history, Starts scenario start ∧ Runs start history s

section Reach
variable {scenario : ScenarioDefinition} {start s s' : RunState} {history : List (Input × Applied)}

theorem Starts.opened (starts : Starts scenario start) : Opened scenario start := by
  obtain ⟨_,_,_,made⟩ := starts
  exact RunState.from_scenario_ok made

theorem Runs.sane (runs : Runs start history s) (sane : Sane start) : Sane s := by
  induction runs with
  | nil => exact sane
  | step before ran ih =>
    obtain ⟨t,stepped⟩ := Input.stepped ih ran
    exact stepped.sane

theorem Runs.setup (runs : Runs start history s) (sane : Sane start) : s.setup = start.setup := by
  induction runs with
  | nil => rfl
  | step before ran ih =>
    obtain ⟨t,stepped⟩ := Input.stepped (before.sane sane) ran
    exact stepped.setup.trans ih

theorem Runs.last {input : Input} {applied : Applied} (runs : Runs start (history ++ [(input,applied)]) s) :
    ∃ middle, Runs start history middle ∧ input.step.run middle = .ok applied s := by
  generalize whole : history ++ [(input,applied)] = all at runs
  cases runs with
  | nil => exact absurd whole (by simp)
  | step before ran =>
    obtain ⟨rfl,same⟩ := List.append_inj' whole rfl
    cases same
    exact ⟨_,before,ran⟩

theorem Runs.split {entry : Input × Applied} {after : List (Input × Applied)}
    (runs : Runs start (history ++ entry :: after) s) :
    ∃ before next, Runs start history before ∧ entry.1.step.run before = .ok entry.2 next ∧ Runs next after s := by
  induction after using List.reverseRecOn generalizing s with
  | nil =>
    obtain ⟨before,first,ran⟩ := runs.last
    exact ⟨before,s,first,ran,.nil⟩
  | append_singleton after final ih =>
    rw [← List.cons_append,← List.append_assoc] at runs
    obtain ⟨middle,first,ran⟩ := runs.last
    obtain ⟨before,next,earlier,here,later⟩ := ih first
    exact ⟨before,next,earlier,here,later.step ran⟩

section
variable (reachable : Reachable scenario s)
include reachable

theorem Reachable.sane : Sane s := by
  obtain ⟨start,history,starts,runs⟩ := reachable
  exact runs.sane starts.opened.sane

/-- The setup of a run is that of its opening state. -/
theorem Reachable.opened : ∃ start, Opened scenario start ∧ s.setup = start.setup := by
  obtain ⟨start,history,starts,runs⟩ := reachable
  exact ⟨start,starts.opened,runs.setup starts.opened.sane⟩

theorem Reachable.participants : s.setup.participants = scenario.participants := by
  obtain ⟨start,opened,same⟩ := reachable.opened
  rw [same]
  exact opened.participants

theorem Reachable.terms :
    s.ledger.terms = scenario.instruments.mapValues (fun _ instrument => instrument.terms) := by
  obtain ⟨start,opened,same⟩ := reachable.opened
  have terms : s.setup.terms = start.setup.terms := by rw [same]
  exact terms.trans opened.seeded.terms

theorem Reachable.definitions : s.setup.definitions = scenario.listings := by
  obtain ⟨start,opened,same⟩ := reachable.opened
  rw [same]
  exact opened.definitions

end

/-! ### Runs under a condition -/

/-- Steps that returned, each of which met a condition on the state before it and its input. -/
inductive RunsWhere (allowed : RunState → Input → Prop) (start : RunState) : RunState → Prop
  | nil : RunsWhere allowed start start
  | step {s s' input applied} (before : RunsWhere allowed start s) (meets : allowed s input)
      (ran : input.step.run s = .ok applied s') : RunsWhere allowed start s'

/-- The states of the runs of a scenario each step of which met the condition. -/
def ReachableWhere (allowed : RunState → Input → Prop) (scenario : ScenarioDefinition) (s : RunState) : Prop :=
  ∃ start, Starts scenario start ∧ RunsWhere allowed start s

section Where
variable {allowed : RunState → Input → Prop}

theorem RunsWhere.runs (runs : RunsWhere allowed start s) : ∃ history, Runs start history s := by
  induction runs with
  | nil => exact ⟨[],.nil⟩
  | step _ _ ran ih =>
    obtain ⟨history,before⟩ := ih
    exact ⟨_,before.step ran⟩

theorem ReachableWhere.reachable (reachable : ReachableWhere allowed scenario s) : Reachable scenario s := by
  obtain ⟨start,starts,runs⟩ := reachable
  obtain ⟨history,before⟩ := runs.runs
  exact ⟨start,history,starts,before⟩

/-- What every step that meets the condition keeps holds of every state such steps reach. -/
theorem ReachableWhere.keeps {P : RunState → Prop} (reachable : ReachableWhere allowed scenario s)
    (opens : ∀ start, Opened scenario start → P start)
    (keeps : ∀ s s' (input : Input) applied, Reachable scenario s → P s → allowed s input →
      input.step.run s = .ok applied s' → P s') : P s := by
  obtain ⟨start,starts,runs⟩ := reachable
  induction runs with
  | nil => exact opens start starts.opened
  | step before meets ran ih =>
    exact keeps _ _ _ _ (ReachableWhere.reachable ⟨start,starts,before⟩) ih meets ran

end Where

/-! ### Runs that are computed -/

/-- Inputs that meet a condition and return, with what holds of the log and the state they lead to. -/
def Plays {τ : Type} (log : RunState → Input → Applied → RunState → τ) (allowed : RunState → Input → Prop)
    (P : List τ → RunState → Prop) (history : List τ) (s : RunState) : List Input → Prop
  | [] => P history s
  | input :: rest => allowed s input ∧ ∃ applied s', input.step.run s = .ok applied s' ∧
    Plays log allowed P (history ++ [log s input applied s']) s' rest

section Plays
variable {τ : Type} {log : RunState → Input → Applied → RunState → τ} {allowed : RunState → Input → Prop}
  {P : List τ → RunState → Prop} {entries : List τ} {inputs : List Input}

instance plays_decidable [∀ s input, Decidable (allowed s input)] [∀ entries s, Decidable (P entries s)] :
    ∀ inputs entries s, Decidable (Plays log allowed P entries s inputs)
  | [],entries,s => inferInstanceAs (Decidable (P entries s))
  | _ :: rest,_,_ =>
    have := plays_decidable rest
    inferInstanceAs (Decidable (_ ∧ ∃ _ _, _ ∧ _))

theorem Plays.leads {R : List τ → RunState → Prop} (first : R entries s) (plays : Plays log allowed P entries s inputs)
    (keeps : ∀ entries s (input : Input) applied s', R entries s → allowed s input →
      input.step.run s = .ok applied s' → R (entries ++ [log s input applied s']) s') :
    ∃ entries' s', R entries' s' ∧ P entries' s' := by
  induction inputs generalizing s entries with
  | nil => exact ⟨entries,s,first,plays⟩
  | cons input rest ih =>
    obtain ⟨meets,applied,s',ran,later⟩ := plays
    exact ih (keeps _ _ _ _ _ first meets ran) later

/-- A state that inputs reach, with what holds of it. -/
theorem play_reaches (codec : Codec) (inputs : List Input) (P : List (Input × Applied) → RunState → Prop)
    (plays : ∃ start, RunState.from_scenario codec 1 1 scenario = .ok start ∧
      Plays (fun _ input applied _ => (input,applied)) (fun _ _ => True) P [] start inputs) :
    ∃ start history s, Starts scenario start ∧ Runs start history s ∧ P history s := by
  obtain ⟨start,made,plays⟩ := plays
  obtain ⟨history,s,runs,holds⟩ := plays.leads .nil fun _ _ _ _ _ runs _ ran => Runs.step runs ran
  exact ⟨start,history,s,⟨codec,1,1,made⟩,runs,holds⟩

/-- A state that inputs reach each of which met a condition, with what holds of it. -/
theorem play_reaches_where (codec : Codec) (inputs : List Input) (P : RunState → Prop)
    (plays : ∃ start, RunState.from_scenario codec 1 1 scenario = .ok start ∧
      Plays (fun _ input _ _ => input) allowed (fun _ => P) [] start inputs) :
    ∃ s, ReachableWhere allowed scenario s ∧ P s := by
  obtain ⟨start,made,plays⟩ := plays
  obtain ⟨_,s,runs,holds⟩ := Plays.leads (R := fun _ => RunsWhere allowed start) .nil plays
    fun _ _ _ _ _ runs meets ran => runs.step meets ran
  exact ⟨s,⟨start,⟨codec,1,1,made⟩,runs⟩,holds⟩

theorem play_steps (codec : Codec) (inputs : List Input) (input : Input) (P : RunState → Applied → RunState → Prop)
    (plays : ∃ start, RunState.from_scenario codec 1 1 scenario = .ok start ∧
      Plays (fun _ input applied _ => (input,applied)) (fun _ _ => True)
        (fun _ s => ∃ applied s', input.step.run s = .ok applied s' ∧ P s applied s') [] start inputs) :
    ∃ s applied s', Reachable scenario s ∧ input.step.run s = .ok applied s' ∧ P s applied s' := by
  obtain ⟨start,history,s,starts,runs,applied,s',ran,holds⟩ := play_reaches codec inputs _ plays
  exact ⟨s,applied,s',⟨start,history,starts,runs⟩,ran,holds⟩

end Plays

end Reach

/-! ### A small market -/

/-- An encoding that never fails. -/
def sample_codec : Codec := ⟨fun _ => .ok "",fun _ => .ok ""⟩

/-- A participant that pays from its own cash. -/
def sample_trader (id : ParticipantId) (cash : Int) : ParticipantId × ParticipantDefinition :=
  (id,⟨id,true,⟨1000,1000,1000,true,10⟩,OrdMap.ofList [(1,cash)],∅⟩)

/-- One instrument on one listing, and two participants. -/
def sample : ScenarioDefinition where
  scenario_id := 1
  scenario_version := 1
  reporting_currency := 1
  instruments := OrdMap.ofList [(1,{ instrument_id := 1, symbol := "A", currency := 1, shortable := true })]
  listings := OrdMap.ofList [(⟨1,1⟩,{ key := ⟨1,1⟩, symbol := "A", price_bounds := ⟨1,100⟩ })]
  participants := OrdMap.ofList [sample_trader 1 1000,sample_trader 2 1000]

/-- The small market with a calendar of two days. -/
def sample_days : ScenarioDefinition := { sample with calendar := some ⟨100,2,∅,[⟨1,10,20,30,40⟩]⟩ }

/-- An order on the sole listing. -/
def place (sequence time : Nat) (order_id : OrderId) (participant : ParticipantId) (side : Side) (quantity : Int)
    (kind : OrderKind) : Input :=
  .Command ⟨1,sequence + 1,sequence + 1,time,sequence,participant,
    .SubmitOrder ⟨order_id,1,participant,side,quantity,kind,false⟩⟩

def ask (sequence time : Nat) (actor : ParticipantId) (command : SimulationCommand) : Input :=
  .Request ⟨1,sequence + 1,sequence + 1,time,sequence,actor,command⟩

end Bunting
