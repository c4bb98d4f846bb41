import Bunting.Commits

/-!
The commands and the simulation requests one by one, each as the piece of a
transition between its catch-up and its commit. A settlement fails only where
the cash of the live orders is not vouched for.
-/

namespace Bunting
open Stateful

section Perform
variable {F : Frame} {t u : Transition} {run : RunState} {key : Option ListingKey}

theorem unsettled_overflow {covered : Prop} {fault : Fault} (large : Overflows fault t) : Unsettled covered fault t := by
  have cause : fault.cause = .Overflow := large
  intro e settling
  rw [cause] at settling
  cases settling

/-- The frame is kept, whoever vouched for the cash of the live orders; the order submitted, if any, may have been taken. -/
def Kept (F : Frame) (order : Option SubmitOrder) (u : Transition) : Prop :=
  ∃ mode, (mode = F.mode ∨ order.map Mode.Taken = some mode) ∧ Inv (F.shift mode).doubt u

theorem Inv.kept {order : Option SubmitOrder} (inv : Inv F u) : Kept F order u := ⟨F.mode,.inl rfl,Core.doubt inv⟩

theorem Kept.emit {order : Option SubmitOrder} {payload : EventPayload} (kept : Kept F order u) (quiet : payload.Quiet) :
    Kept F order { u with payloads := u.payloads ++ [payload] } := by
  obtain ⟨mode,taken,inv⟩ := kept
  exact ⟨mode,taken,inv.emit_one quiet⟩

/-- What a command leaves; one that refuses leaves the run alone. -/
def Performed (F : Frame) (order : Option SubmitOrder) (t : Transition) (accepted : Bool) (u : Transition) : Prop :=
  Kept F order u ∧ (accepted = false → u.run = t.run)

/-! ### Commands -/

theorem answer_order_meets {order : Option SubmitOrder} (order_id : OrderId) (outcome : Except RejectCode Unit)
    {E : Fault → Transition → Prop} :
    Meets (fun u => Kept F order u ∧ (outcome ≠ .ok () → u.run = t.run)) (answer_order order_id outcome)
      (fun answer => Performed F order t answer.accepted) E := by
  cases outcome with
  | ok _ => exact pure_meets fun u holds => ⟨holds.1,fun refused => (nomatch refused)⟩
  | error code =>
    rintro u ⟨kept,same⟩
    exact ⟨kept.emit trivial,fun _ => same (by simp)⟩

theorem submit_command_meets {order : SubmitOrder} {key : ListingKey} (opened : F.mode = .Open) (inv : Inv F t)
    (at_key : key.instrument_id = order.instrument_id) :
    Meets (fun u => t = u) (submit_command order (some key) F.now)
      (fun answer => Performed F (some order) t answer.accepted) (Unsettled F.covered) := by
  have quiet : (EventPayload.OrderReceived order (some key)).Quiet := trivial
  have received := inv.emit_one quiet
  have settles : Meets (fun u => { t with payloads := t.payloads ++ [.OrderReceived order (some key)] } = u)
      (submit_gated order key F.now) (fun outcome u => Kept F (some order) u ∧ (outcome ≠ .ok () → u.run = t.run))
      (Unsettled F.covered) := by
    refine (submit_gated_meets opened received at_key).post fun outcome u submitted => ?_
    obtain ⟨changed,submitted⟩ := submitted
    cases outcome with
    | ok _ => exact ⟨⟨_,.inr rfl,submitted⟩,fun refused => absurd rfl refused⟩
    | error code =>
      have same : u = _ := submitted
      rw [same]
      exact ⟨(received.touch changed).kept,fun _ => rfl⟩
  rintro _ rfl
  exact (settles.bind fun outcome => answer_order_meets order.order_id outcome) _ rfl

theorem cancel_requested_meets (request : CancelOrder) (inv : Inv F t) :
    Meets (fun u => t = u) (cancel_requested request)
      (fun outcome u => Kept F none u ∧ (outcome ≠ .ok () → u.run = t.run)) (Unsettled F.covered) := by
  have stays (code : RejectCode) : Meets (fun u => t = u) (pure (.error code) : Engine (Except RejectCode Unit))
      (fun outcome u => Kept F none u ∧ (outcome ≠ .ok () → u.run = t.run)) (Unsettled F.covered) :=
    pure_meets fun _ same => same ▸ ⟨inv.kept,fun _ => rfl⟩
  refine get_meets fun _ same => ?_
  subst same
  cases found : t.run.ownership.get? request.order_id with
  | none => exact stays _
  | some owned =>
    refine ite_meets (fun _ => stays _) fun _ => ite_meets (fun _ => stays _) fun live => ?_
    have live : AllLive [request.order_id] t := by
      refine ⟨by simp,fun id member => ?_⟩
      rw [List.mem_singleton.mp member]
      exact ⟨owned,found,not_not.mp live⟩
    have cancels : Meets (fun u => t = u) (do touch owned.listing_key; cancel request.order_id .Requested)
        (fun _ => Inv F) Overflows :=
      ((touch_meets owned.listing_key _).bind fun _ => cancel_meets request.order_id [] .Requested).imp
        (fun _ same => same ▸ ⟨inv,live⟩) (fun _ _ holds => holds.1) fun _ _ large => large
    have whole := (cancels.fault fun _ _ large => unsettled_overflow large).bind fun _ =>
      (pure_meets fun u inv => ⟨inv.kept,fun refused => absurd rfl refused⟩ :
        Meets (Inv F) (pure (.ok ()) : Engine (Except RejectCode Unit))
          (fun outcome u => Kept F none u ∧ (outcome ≠ .ok () → u.run = t.run)) (Unsettled F.covered))
    rw [bind_assoc] at whole
    exact whole

theorem Inv.switch (inv : Inv F t) (kill_switched : OrdSet ParticipantId) :
    Inv F { t with run := { t.run with kill_switched } } :=
  { inv with moves := inv.moves.tail (.switched kill_switched) }

theorem activate_kill_switch_meets (participant : ParticipantId) :
    Meets (Inv F) (activate_kill_switch participant) (fun _ => Inv F) Overflows := by
  have switches : Meets (Inv F) (modify_run (fun run => { run with
      kill_switched := run.kill_switched.insert participant () })) (fun _ => Inv F) Overflows := fun t inv => inv.switch _
  refine switches.bind fun _ => (emit_meets (by exact trivial)).bind fun _ => get_meets fun t inv => ?_
  obtain ⟨live,_⟩ := inv.live_where (fun owned => decide (owned.participant_id = participant))
  refine (cancel_all_meets .KillSwitch _).pre ?_
  rintro _ rfl
  refine ⟨inv,?_⟩
  rw [List.map_map]
  exact live

theorem reset_kill_switch_meets (participant : ParticipantId) :
    Meets (Inv F) (reset_kill_switch participant) (fun _ => Inv F) Overflows := by
  have switches : Meets (Inv F) (modify_run (fun run => { run with
      kill_switched := run.kill_switched.erase participant })) (fun _ => Inv F) Overflows := fun t inv => inv.switch _
  exact switches.bind fun _ => emit_meets (by exact trivial)

def CommandPayload.order : CommandPayload → Option Bunting.SubmitOrder
  | .SubmitOrder order | .SubmitOrderAtListing _ order => some order
  | _ => none

/-- The listing of a submission is one of its instrument. -/
theorem RunState.resolve_listing_ok {payload : CommandPayload}
    {order : SubmitOrder} (resolved : run.resolve_listing payload = .ok key) (submits : payload.order = some order) :
    ∃ k, key = some k ∧ k.instrument_id = order.instrument_id := by
  cases payload with
  | SubmitOrder placed =>
    cases submits
    simp only [RunState.resolve_listing] at resolved ⊢
    unfold RunState.listing_key_for_instrument at resolved
    split at resolved
    · cases resolved
    · next k sole =>
      cases resolved
      have member : k ∈ run.listings.keys.filter (fun key => key.instrument_id = order.instrument_id) := by rw [sole]; simp
      exact ⟨k,rfl,by simpa using (List.mem_filter.mp member).2⟩
    · cases resolved
  | SubmitOrderAtListing k placed =>
    cases submits
    simp only [RunState.resolve_listing,except_bind_eq_ok,except_refuse_eq_ok,except_pure_eq_ok] at resolved ⊢
    obtain ⟨_,passes,rfl⟩ := resolved
    exact ⟨k,rfl,by by_contra other; exact passes (.inl other)⟩
  | CancelOrder request => cases submits
  | ActivateKillSwitch => cases submits
  | ResetKillSwitch => cases submits

theorem perform_meets {command : Command} (opened : F.mode = .Open)
    (inv : Inv F t) (now : F.now = command.logical_time) (resolved : run.resolve_listing command.payload = .ok key) :
    Meets (fun u => t = u) (perform command key) (fun answer => Performed F command.payload.order t answer.accepted)
      (Unsettled F.covered) := by
  have switches (m : Engine Unit) (keeps : Meets (Inv F) m (fun _ => Inv F) Overflows) :
      Meets (fun u => t = u) (do m; pure ⟨true,none,none⟩) (fun answer : Answer => Performed F none t answer.accepted)
        (Unsettled F.covered) :=
    ((keeps.at_state inv).fault fun _ _ large => unsettled_overflow large).bind fun _ =>
      pure_meets fun u inv => ⟨inv.kept,fun refused => (nomatch refused)⟩
  unfold perform
  rw [← now]
  cases payload : command.payload with
  | SubmitOrder order =>
    obtain ⟨k,rfl,at_key⟩ := RunState.resolve_listing_ok resolved (by rw [payload]; rfl)
    exact submit_command_meets opened inv at_key
  | SubmitOrderAtListing listing order =>
    obtain ⟨k,rfl,at_key⟩ := RunState.resolve_listing_ok resolved (by rw [payload]; rfl)
    exact submit_command_meets opened inv at_key
  | CancelOrder request =>
    exact (cancel_requested_meets request inv).bind fun outcome => answer_order_meets request.order_id outcome
  | ActivateKillSwitch => exact switches _ (activate_kill_switch_meets command.actor)
  | ResetKillSwitch => exact switches _ (reset_kill_switch_meets command.actor)

/-! ### Simulation requests -/

theorem mass_cancel_meets (participant : Option ParticipantId) (instrument : Option InstrumentId) :
    Meets (Inv F) (mass_cancel participant instrument) (fun _ => Inv F) Overflows := by
  refine get_meets fun t inv => ?_
  obtain ⟨live,named⟩ := inv.live_where (fun owned => decide (participant.all (fun id => owned.participant_id = id) ∧
    instrument.all (fun id => owned.listing_key.instrument_id = id)))
  refine Meets.bind (Q := fun _ => Inv F) ?_ fun _ => emit_meets ⟨rfl,rfl⟩
  refine (cancel_all_meets .MassCancel _).pre ?_
  rintro _ rfl
  refine ⟨inv,?_⟩
  rw [List.map_map]
  have same := named.symm ▸ live
  exact same

/-- The simulation command a request runs, and the world it leaves. -/
def Ran (request : SimulationCommandRequest) (t : Transition) (events : List SimulationEvent) (w : World) : Prop :=
  (SimulationState.apply t.run.context request.actor request.logical_time request.payload).run
    ⟨t.run.simulation,t.run.ledger⟩ = .ok events w

/-- What a simulation request leaves: the live orders it names are canceled, or its command has posted what its events
    say and the expiries it passed are canceled. -/
def Requested (F : Frame) (request : SimulationCommandRequest) (t u : Transition) : Prop :=
  (request.payload.direct = true ∧ Inv F u ∧ (request.payload = .ClockTick → Unexpired F.simulation.clock.now u.run)) ∨
  (request.payload.direct = false ∧ ∃ events w, Ran request t events w ∧ SimSound F.setup w.sim ∧
    Inv (F.after w.sim events False False F.vacuous) u ∧ Unexpired w.sim.clock.now u.run)

/-- The base of the frame and the simulation of the transition belong to one run. -/
structure Frame.Standing (F : Frame) (t : Transition) : Prop where
  base : SimSound F.setup F.base
  sound : SimSound F.setup F.simulation
  below : Below F.base t.run.simulation

variable (inv : Inv F t)
include inv

variable {request : SimulationCommandRequest}

theorem Ran.posted {events : List SimulationEvent} {w : World} (standing : F.Standing t) (ran : Ran request t events w) :
    Posted F.setup F.base request.payload.moves (request.payload.jump F.simulation.clock.step_ns)
      ⟨t.run.simulation,t.run.ledger⟩ events w := by
  have stands : Bunting.Standing F.setup F.base ⟨t.run.simulation,t.run.ledger⟩ :=
    ⟨inv.balanced.accounts.terms,by rw [inv.simulation]; exact standing.sound,standing.below⟩
  rw [← inv.simulation]
  exact (SimulationState.apply_does ran).posted standing.base stands

/-- The simulation command posts what its events say, and the expiries it passes are canceled. -/
theorem simulate_meets (standing : F.Standing t) :
    Meets (fun u => t = u) (simulate request)
      (fun _ u => ∃ events w, Ran request t events w ∧ SimSound F.setup w.sim ∧
        Inv (F.after w.sim events False False False.elim) u ∧ Unexpired w.sim.clock.now u.run) (Unsettled F.covered) := by
  refine get_meets fun _ same => ?_
  subst same
  have posts : Meets (fun u => t = u) (do
      let events ← on_simulation (SimulationState.apply t.run.context request.actor request.logical_time request.payload)
      emit (events.map EventPayload.Simulation)) (fun _ u => ∃ events w, Ran request t events w ∧ SimSound F.setup w.sim ∧
        Inv (F.after w.sim events False False False.elim) u) (Unsettled F.covered) := by
    rintro _ rfl
    rw [EStateM.run_bind,on_simulation,run_zoom]
    cases ran : (SimulationState.apply t.run.context request.actor request.logical_time request.payload).run
        ⟨t.run.simulation,t.run.ledger⟩ with
    | ok events w =>
      have posted := Ran.posted inv standing ran
      exact ⟨events,w,ran,posted.sound,inv.simulated False.elim posted.posted posted.own False.elim False.elim⟩
    | error e w =>
      intro d settling
      unfold Fault.simulation at settling
      simp only at settling
      split_ifs at settling
  have expires : Meets (fun u => ∃ events w, Ran request t events w ∧ SimSound F.setup w.sim ∧
        Inv (F.after w.sim events False False False.elim) u) (do
      let t ← get
      expire_due t.run.simulation.clock.now) (fun _ u => ∃ events w, Ran request t events w ∧ SimSound F.setup w.sim ∧
        Inv (F.after w.sim events False False False.elim) u ∧ Unexpired w.sim.clock.now u.run) (Unsettled F.covered) := by
    refine get_meets fun u simulated => ?_
    obtain ⟨events,w,ran,sound,inv⟩ := simulated
    have now : u.run.simulation.clock.now = w.sim.clock.now := by rw [inv.simulation]; rfl
    rw [now]
    exact ((expire_due_meets _).at_state inv).imp (fun _ holds => holds)
      (fun _ _ holds => ⟨events,w,ran,sound,holds.1,holds.2⟩) fun _ _ large => unsettled_overflow large
  have whole := posts.bind fun _ => expires
  rw [bind_assoc] at whole
  exact whole

theorem simulate_tick_meets (tick : request.payload = .ClockTick) :
    Meets (fun u => t = u) (simulate request) (fun _ u => Inv F u ∧ Unexpired F.simulation.clock.now u.run)
      (Unsettled F.covered) := by
  refine get_meets fun _ same => ?_
  subst same
  have idles : Meets (fun u => t = u) (do
      let events ← on_simulation (SimulationState.apply t.run.context request.actor request.logical_time request.payload)
      emit (events.map EventPayload.Simulation)) (fun _ => Inv F) (Unsettled F.covered) := by
    rintro _ rfl
    rw [EStateM.run_bind,on_simulation,run_zoom,tick]
    by_cases late : request.logical_time < t.run.simulation.clock.now
    · have refused : (SimulationState.apply t.run.context request.actor request.logical_time .ClockTick).run
          ⟨t.run.simulation,t.run.ledger⟩ = .error .LogicalTimeRegression ⟨t.run.simulation,t.run.ledger⟩ := by
        simp [SimulationState.apply,run_refuse,late]
      rw [refused]
      intro d settling
      cases settling
    · have passes : (SimulationState.apply t.run.context request.actor request.logical_time .ClockTick).run
          ⟨t.run.simulation,t.run.ledger⟩ = .ok [] ⟨t.run.simulation,t.run.ledger⟩ := by
        simp [SimulationState.apply,run_refuse,late]
      rw [passes]
      have quiet : ∀ payload ∈ ([] : List EventPayload), payload.Quiet := by simp
      exact Core.emit inv quiet
  have expires : Meets (Inv F) (do
      let t ← get
      expire_due t.run.simulation.clock.now) (fun _ u => Inv F u ∧ Unexpired F.simulation.clock.now u.run)
      (Unsettled F.covered) := by
    refine get_meets fun u inv => ?_
    rw [inv.simulation]
    exact ((expire_due_meets _).at_state inv).fault fun _ _ large => unsettled_overflow large
  have whole := idles.bind fun _ => expires
  rw [bind_assoc] at whole
  exact whole

theorem perform_simulation_meets (standing : F.Standing t) :
    Meets (fun u => t = u) (perform_simulation request) (fun _ => Requested F request t) (Unsettled F.covered) := by
  unfold perform_simulation
  split
  · next participant instrument cancels =>
    have direct : request.payload.direct = true := by rw [cancels]; rfl
    exact ((mass_cancel_meets participant instrument).at_state inv).imp (fun _ holds => holds)
      (fun _ _ inv => .inl ⟨direct,inv,fun tick => by rw [cancels] at tick; cases tick⟩)
      fun _ _ large => unsettled_overflow large
  · next other =>
    by_cases tick : request.payload = .ClockTick
    · have direct : request.payload.direct = true := by rw [tick]; rfl
      exact (simulate_tick_meets inv tick).post fun _ _ holds => .inl ⟨direct,holds.1,fun _ => holds.2⟩
    · have staged : request.payload.direct = false := by
        cases payload : request.payload with
        | ClockTick => exact absurd payload tick
        | MassCancel participant instrument => exact (other participant instrument payload).elim
        | _ => rfl
      exact (simulate_meets inv standing).post fun _ _ holds => .inr ⟨staged,holds⟩

end Perform

end Bunting
