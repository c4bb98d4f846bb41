import Bunting.Runs

/-!
The session boundaries that a transition crosses, one after another, and the
auctions held at each. Every boundary is crossed in the invariant, by a venue
that is at it, once the orders that expire by its time are canceled.
-/

namespace Bunting
open Stateful

/-- A phase in which a book is not collecting orders for an auction. -/
def SessionPhase.Apart (phase : SessionPhase) : Prop := phase = .Continuous ∨ phase = .Closed

instance (phase : SessionPhase) : Decidable phase.Apart := inferInstanceAs (Decidable (_ ∨ _))

def Transition.pass (t : Transition) (venue : VenueId) (step : Nat) : Transition :=
  { t with run := { t.run with session_steps := t.run.session_steps.insert venue (step + 1) } }

/-- Auctions of listings one after another, each with the transition that it is called in. -/
def auction_calls : List ListingKey → Transition → List (ListingKey × Transition)
  | [],_ => []
  | key :: rest,t => (key,t) :: match (do touch key; auction key : Engine Unit).run t with
    | .ok _ u => auction_calls rest u
    | .error _ _ => []

/-- A boundary that a transition crosses: the transition as it comes up, and once the orders that expire by its time are
    canceled. -/
structure Crossing where
  venue : VenueId
  step : Nat
  boundary : Boundary
  before : Transition
  expired : Transition

def Crossing.calls (crossing : Crossing) : List (ListingKey × Transition) :=
  if crossing.boundary.phase.Apart then
    auction_calls (crossing.expired.run.venue_listings crossing.venue) (crossing.expired.pass crossing.venue crossing.step)
  else []

/-- The boundaries that a transition crosses up to a time. -/
def crossings (time : Nat) : Nat → Transition → List Crossing
  | 0,_ => []
  | fuel + 1,t =>
    match t.run.due_boundary time with
    | none => []
    | some (venue,step,boundary) =>
      match (expire_due boundary.at_ns).run t with
      | .error _ _ => []
      | .ok _ u => ⟨venue,step,boundary,t,u⟩ :: match (cross_boundary venue step boundary).run u with
        | .ok _ v => crossings time fuel v
        | .error _ _ => []

def Input.crossings (input : Input) (s : RunState) : List Crossing :=
  match (do
    let events ← on_simulation (SimulationState.catch_up input.logical_time input.ticks)
    emit (events.map EventPayload.Simulation) : Engine Unit).run (input.opens s) with
  | .ok _ t => Bunting.crossings input.logical_time t.run.boundaries_left t
  | .error _ _ => []

section Crossings
variable {F : Frame} {t u : Transition} {crossing : Crossing}

theorem auction_call {key : ListingKey} (opened : F.mode = .Open)
    (inv : Inv F { t with changed := t.changed.insert key () }) (member : F.setup.definitions.contains key = true)
    (ran : (do touch key; auction key : Engine Unit).run t = .ok () u) : Inv F u ∧ Auctioned key t u := by
  simp only [touch,returned] at ran
  obtain ⟨inv',auctioned⟩ := (auction_meets opened inv member).ok rfl ran
  exact ⟨inv',auctioned.others,auctioned.clears⟩

theorem cross_boundary_run {venue : VenueId} {step : Nat} {boundary : Boundary}
    (ran : (cross_boundary venue step boundary).run t = .ok () u) :
    ∃ crossed expired, (uncross_venue venue boundary.phase).run (t.pass venue step) = .ok () crossed ∧
      (expire_day_orders venue boundary.phase).run crossed = .ok () expired ∧
      (record_close venue boundary).run { expired with payloads := expired.payloads ++
        [.Simulation (.SessionPhaseChanged venue boundary.day boundary.phase)] } = .ok () u := by
  simp only [cross_boundary,modify_run,emit,returned] at ran
  obtain ⟨next,fitted,crossed,uncrosses,expired,expires,closes⟩ := ran
  cases to_u64_some fitted
  exact ⟨crossed,expired,uncrosses,expires,closes⟩

/-- A frame in which a transition crosses a boundary. -/
structure Crossing.Framed (crossing : Crossing) (F : Frame) : Prop where
  opened : F.mode = .Open
  inv : Inv F crossing.before
  due : F.Due crossing.venue crossing.step crossing.boundary
  expires : (expire_due crossing.boundary.at_ns).run crossing.before = .ok () crossing.expired

theorem crossings_framed {time fuel : Nat} (opened : F.mode = .Open) (in_time : time ≤ F.now)
    (inv : Inv F t) (member : crossing ∈ crossings time fuel t) :
    ∃ G, crossing.Framed G ∧ G.setup = F.setup ∧ G.now = F.now ∧
      ∃ step, F.steps.get? crossing.venue = some step ∧ step ≤ crossing.step := by
  induction fuel generalizing F t with
  | zero => cases member
  | succ fuel ih =>
    unfold crossings at member
    split at member
    · cases member
    · next venue step boundary due =>
      have passes := inv.due in_time due
      split at member
      · cases member
      · next v expires =>
        rcases List.mem_cons.mp member with rfl | later
        · exact ⟨F,⟨opened,inv,passes,expires⟩,rfl,rfl,step,passes.at_step,le_rfl⟩
        · split at later
          · next w crosses =>
            have expired := ((expire_due_meets boundary.at_ns).ok inv expires).1
            have crossed := (cross_boundary_meets opened passes).ok expired crosses
            obtain ⟨G,framed,setup,now,next,at_next,le⟩ := ih (F := F.pass venue step boundary) opened in_time crossed later
            refine ⟨G,framed,setup,now,?_⟩
            simp only [Frame.pass,OrdMap.get?_insert] at at_next
            split_ifs at at_next with same
            · cases at_next
              exact ⟨step,same ▸ passes.at_step,by omega⟩
            · exact ⟨next,at_next,le⟩
          · cases later

section Ordered
variable {time fuel : Nat} {calendar : Calendar} {venues : OrdSet VenueId} (opened : F.mode = .Open) (in_time : time ≤ F.now)
  (inv : Inv F t) (has : F.setup.calendar = some calendar) (valid : calendar.is_valid venues = true) {venue : VenueId}
  {boundary : Boundary}
include opened in_time inv has valid

/-- The boundaries come in the order of time, those of one venue in the order of its steps. -/
theorem crossings_ordered : (crossings time fuel t).Pairwise fun a b =>
    a.boundary.at_ns ≤ b.boundary.at_ns ∧ (a.venue = b.venue → a.step < b.step) := by
  induction fuel generalizing F t with
  | zero => exact .nil
  | succ fuel ih =>
    unfold crossings
    split
    · exact .nil
    · next venue step boundary due =>
      have passes := inv.due in_time due
      split
      · exact .nil
      · next u expires =>
        split
        · next v crosses =>
          have expired := ((expire_due_meets boundary.at_ns).ok inv expires).1
          have crossed := (cross_boundary_meets opened passes).ok expired crosses
          refine List.pairwise_cons.mpr ⟨fun later member => ?_,@ih (F.pass venue step boundary) _ opened in_time crossed has⟩
          obtain ⟨G,framed,setup,_,k,at_k,le⟩ := crossings_framed (F := F.pass venue step boundary) opened in_time crossed member
          obtain ⟨c,has',found⟩ := framed.due.passes
          rw [setup] at has'
          cases has.symm.trans has'
          obtain ⟨next,_⟩ := Option.filter_eq_some_iff.mp due
          obtain ⟨c,has',at_step,first,least⟩ := RunState.next_crossing_some next
          cases has.symm.trans (inv.calendar.symm.trans has')
          simp only [Frame.pass,OrdMap.get?_insert] at at_k
          split_ifs at at_k with same
          · cases at_k
            exact ⟨Calendar.boundary_le valid (Nat.le_of_succ_le le) first (same ▸ found),fun _ => le⟩
          · -- Another venue comes next where it stands, and that is no later than what it crosses after.
            rw [← inv.steps] at at_k
            obtain ⟨b,stands⟩ := Calendar.boundary_of_le valid le found
            have turns := least later.venue k b at_k stands
            have sooner : boundary.at_ns ≤ b.at_ns := by
              rcases Prod.Lex.le_iff.mp turns with earlier | ⟨same,_⟩
              · exact earlier.le
              · exact same.le
            exact ⟨sooner.trans (Calendar.boundary_le valid le stands found),fun equal => (same equal.symm).elim⟩
        · exact List.pairwise_singleton ..

omit opened in_time in
/-- A boundary due stands ahead of its venue, at the venue's own step or after it. -/
theorem Inv.overdue {k step : Nat} (at_step : F.steps.get? venue = some k)
    (le : k ≤ step) (found : calendar.boundary venue step = some boundary) (due : boundary.at_ns ≤ time) :
    t.run.due_boundary time ≠ none := by
  intro none
  obtain ⟨b,stands⟩ := Calendar.boundary_of_le valid le found
  have ahead := RunState.due_boundary_eq_none_iff.mp none calendar venue k b (inv.calendar.trans has)
    (by rw [inv.steps]; exact at_step) stands
  have := Calendar.boundary_le valid le stands found
  omega

theorem crossings_all (left : t.run.boundaries_left ≤ fuel) (ran : (cross_boundaries time fuel).run t = .ok () u)
    {k step : Nat} (at_step : F.steps.get? venue = some k) (le : k ≤ step)
    (found : calendar.boundary venue step = some boundary) (due : boundary.at_ns ≤ time) :
    ∃ crossing ∈ crossings time fuel t, crossing.venue = venue ∧ crossing.step = step ∧ crossing.boundary = boundary := by
  induction fuel generalizing F t k with
  | zero =>
    obtain ⟨_,_,_,_,none⟩ := (cross_boundaries_meets time 0 F opened in_time).ok ⟨inv,left⟩ rfl
    exact (inv.overdue has valid at_step le found due none).elim
  | succ fuel ih =>
    simp only [cross_boundaries,returned] at ran
    cases next : t.run.due_boundary time with
    | none => exact (inv.overdue has valid at_step le found due next).elim
    | some crossed =>
      obtain ⟨v,here,b⟩ := crossed
      simp only [next,returned] at ran
      obtain ⟨w,expires,x,crosses,rest⟩ := ran
      have passes := inv.due in_time next
      obtain ⟨inv',fewer⟩ := (boundary_meets opened in_time inv next).ok rfl
        (by simp only [returned]; exact ⟨w,expires,crosses⟩)
      have later {j : Nat} (at_j : (F.pass v here b).steps.get? venue = some j) (upto : j ≤ step) :=
        @ih (F.pass v here b) x opened in_time inv' has (by omega) rest j at_j upto
      simp only [crossings,next,expires,crosses,List.exists_mem_cons_iff]
      by_cases same : venue = v
      · subst same
        cases at_step.symm.trans passes.at_step
        rcases le.lt_or_eq with before | rfl
        · exact .inr (later (OrdMap.get?_insert_self _ _ _) before)
        · obtain ⟨c,has',first⟩ := passes.passes
          cases has.symm.trans has'
          exact .inl ⟨rfl,rfl,Option.some.inj (first.symm.trans found)⟩
      · exact .inr (later (by rw [Frame.pass,OrdMap.get?_insert_of_ne same]; exact at_step) le)

end Ordered

/-- Every boundary of a step from a sane run is crossed in a frame, by a venue that the run had not got past it. -/
theorem Input.crossing_framed {input : Input} {s : RunState} (sane : Sane s)
    (member : crossing ∈ input.crossings s) : ∃ F, crossing.Framed F ∧ F.setup = s.setup ∧
      ∃ step, s.session_steps.get? crossing.venue = some step ∧ step ≤ crossing.step := by
  unfold Input.crossings at member
  split at member
  · next x t acts =>
    rw [input.opens_eq s] at acts
    have none : False → s.setup.Cheap := False.elim
    obtain ⟨F,stage,caught,fresh,inv,_⟩ :=
      (catch_up_actions sane none False.elim False.elim input.ticks (input.opens_quiet s)).ok rfl acts
    obtain ⟨G,framed,setup,_,step,at_step,le⟩ := crossings_framed caught.opened stage.now.ge inv member
    exact ⟨G,framed,setup.trans stage.setup,step,by rw [← fresh.2]; exact at_step,le⟩
  · cases member

end Crossings

end Bunting
