import Mathlib.Algebra.Order.Floor.Div
import Bunting.Simulation

/-!
The run clock of the venue. Under pacing, run time follows venue time from an
anchor, and it stands still while the run is not active. The sequencer stamps
inputs and the timer asks when something falls due; both move the anchors. Time
that passes while the run is paused counts for nothing, unless the timer still
works from what it read before.
-/

namespace Bunting

def u64_max : Nat := 18446744073709551615

/-- What the stamp needs from the committed run. -/
structure ClockView where
  now : Nat
  step_ns : Nat
  mode : ClockMode
  active : Bool
  deriving DecidableEq

def ClockView.of (simulation : SimulationState) : ClockView :=
  ⟨simulation.clock.now,simulation.clock.step_ns,simulation.clock.mode,simulation.lifecycle = .Active⟩

/-- Run nanoseconds per venue nanosecond, when run time follows venue time. -/
def ClockView.pace (view : ClockView) : Option (Nat × Nat) :=
  match view.mode with
  | .Paced step_interval_ns =>
    if view.active ∧ view.step_ns > 0 ∧ step_interval_ns > 0 then some (view.step_ns,step_interval_ns) else none
  | _ => none

/-- A run instant paired with the venue instant it was at. -/
structure Anchor where
  run_ns : Nat
  venue_us : Nat
  pace : Nat × Nat
  deriving DecidableEq

namespace Anchor

def run_at (anchor : Anchor) (venue_us : Nat) : Nat :=
  let elapsed_ns := (venue_us - anchor.venue_us) * 1000
  -- the product is of 128 bits and wraps
  let run := elapsed_ns * anchor.pace.1 % 2 ^ 128 / anchor.pace.2
  min (anchor.run_ns + min run u64_max) u64_max

/-- The first venue microsecond at which run time reaches `run_ns`. -/
def venue_at (anchor : Anchor) (run_ns : Nat) : Nat :=
  let ahead := run_ns - anchor.run_ns
  let venue_ns := (ahead * anchor.pace.2) ⌈/⌉ anchor.pace.1
  min (anchor.venue_us + min (venue_ns ⌈/⌉ 1000) u64_max) u64_max

end Anchor

/-- Venue-to-run time mapping per run. -/
structure RunClock where
  anchors : OrdMap RunId Anchor := ∅

/-- The run's anchor at a venue instant, restarted from the clock when the pace changed or the clock moved past the mapping. -/
def current (anchors : OrdMap RunId Anchor) (run_id : RunId) (view : ClockView) (pace : Nat × Nat) (venue_us : Nat) : Anchor :=
  let fresh : Anchor := ⟨view.now,venue_us,pace⟩
  let anchor := (anchors.get? run_id).getD fresh
  if anchor.pace ≠ pace ∨ venue_us < anchor.venue_us ∨ anchor.run_at venue_us < view.now then fresh else anchor

namespace RunClock

/-- The run time of a venue instant. -/
def stamp (clock : RunClock) (run_id : RunId) (view : ClockView) (venue_us : Nat) : Nat × RunClock :=
  match view.pace with
  | none => (view.now,⟨clock.anchors.erase run_id⟩)
  | some pace =>
    let anchor := current clock.anchors run_id view pace venue_us
    (anchor.run_at venue_us,⟨clock.anchors.insert run_id anchor⟩)

/-- The venue instant at which run time reaches `at_ns`, if run time is following venue time. -/
def venue_instant (clock : RunClock) (run_id : RunId) (view : ClockView) (at_ns now_us : Nat) : Option Nat × RunClock :=
  match view.pace with
  | none => (none,clock)
  | some pace =>
    let anchor := current clock.anchors run_id view pace now_us
    (some (anchor.venue_at at_ns),⟨clock.anchors.insert run_id anchor⟩)

end RunClock

/-! ### Pacing -/

/-- The run time of so many venue microseconds. -/
def paced (pace : Nat × Nat) (elapsed_us : Nat) : Nat := elapsed_us * 1000 * pace.1 / pace.2

/-- Neither the venue instant of a run time nor the run time there is cut off. -/
def Anchor.Unsaturated (anchor : Anchor) (run_ns : Nat) : Prop :=
  anchor.venue_us + ((run_ns - anchor.run_ns) * anchor.pace.2) ⌈/⌉ anchor.pace.1 ⌈/⌉ 1000 ≤ u64_max ∧
  anchor.run_ns + paced anchor.pace (anchor.venue_at run_ns - anchor.venue_us) ≤ u64_max

section Pacing
variable {anchor : Anchor} {pace : Nat × Nat} {view : ClockView} {r v : Nat}

theorem ClockView.pace_pos (paces : view.pace = some pace) : 0 < pace.1 ∧ 0 < pace.2 := by
  unfold ClockView.pace at paces
  split at paces
  · split_ifs at paces with following
    cases paces
    exact following.2
  · cases paces

theorem paced_mono {a b : Nat} (le : a ≤ b) : paced pace a ≤ paced pace b :=
  Nat.div_le_div_right (Nat.mul_le_mul_right _ (Nat.mul_le_mul_right _ le))

theorem le_paced_iff (step : 0 < pace.1) (interval : 0 < pace.2) {ahead elapsed : Nat} :
    ahead ≤ paced pace elapsed ↔ (ahead * pace.2) ⌈/⌉ pace.1 ⌈/⌉ 1000 ≤ elapsed := by
  rw [paced,Nat.le_div_iff_mul_le interval,ceilDiv_le_iff_le_mul (by decide),ceilDiv_le_iff_le_mul step]
  rw [mul_comm pace.1,mul_comm 1000]

theorem Anchor.run_at_le (anchor : Anchor) (v : Nat) : anchor.run_at v ≤ anchor.run_ns + paced anchor.pace (v - anchor.venue_us) := by
  have wrapped : (v - anchor.venue_us) * 1000 * anchor.pace.1 % 2 ^ 128 / anchor.pace.2 ≤
      paced anchor.pace (v - anchor.venue_us) := Nat.div_le_div_right (Nat.mod_le _ _)
  simp only [run_at]
  omega

/-- A run time that fits is what the pace gives: a product that wraps is of a run time past the last. -/
theorem Anchor.run_at_eq (word : anchor.pace.2 ≤ 2 ^ 64)
    (fits : anchor.run_ns + paced anchor.pace (v - anchor.venue_us) ≤ u64_max) :
    anchor.run_at v = anchor.run_ns + paced anchor.pace (v - anchor.venue_us) := by
  have whole : (v - anchor.venue_us) * 1000 * anchor.pace.1 % 2 ^ 128 / anchor.pace.2 =
      paced anchor.pace (v - anchor.venue_us) := by
    rcases Nat.eq_zero_or_pos anchor.pace.2 with zero | interval
    · rw [paced,zero,Nat.div_zero,Nat.div_zero]
    have small : (v - anchor.venue_us) * 1000 * anchor.pace.1 < 2 ^ 64 * anchor.pace.2 := by
      rw [← Nat.div_lt_iff_lt_mul interval]
      unfold u64_max paced at fits
      omega
    have unwrapped : (v - anchor.venue_us) * 1000 * anchor.pace.1 < 2 ^ 128 := small.trans_le (Nat.mul_le_mul_left _ word)
    rw [Nat.mod_eq_of_lt unwrapped,paced]
  simp only [run_at,whole]
  omega

theorem Anchor.venue_at_eq (unsaturated : anchor.Unsaturated r) :
    anchor.venue_at r = anchor.venue_us + ((r - anchor.run_ns) * anchor.pace.2) ⌈/⌉ anchor.pace.1 ⌈/⌉ 1000 := by
  have fits := unsaturated.1
  simp only [venue_at]
  omega

/-- The venue instant of a run time is the first at which run time is there. -/
theorem Anchor.first (step : 0 < anchor.pace.1) (interval : 0 < anchor.pace.2) (word : anchor.pace.2 ≤ 2 ^ 64)
    (unsaturated : anchor.Unsaturated r) :
    r ≤ anchor.run_at (anchor.venue_at r) ∧ (anchor.run_ns < r → ∀ v < anchor.venue_at r, anchor.run_at v < r) := by
  have reaches := anchor.venue_at_eq unsaturated
  constructor
  · rw [anchor.run_at_eq word unsaturated.2]
    have there : r - anchor.run_ns ≤ paced anchor.pace (anchor.venue_at r - anchor.venue_us) :=
      (le_paced_iff step interval).mpr (by omega)
    omega
  · intro later v early
    have behind : paced anchor.pace (v - anchor.venue_us) < r - anchor.run_ns := by
      by_contra there
      have := (le_paced_iff step interval).mp (not_lt.mp there)
      -- Before the anchor no run time has passed.
      by_cases before : v ≤ anchor.venue_us
      · rw [Nat.sub_eq_zero_of_le before,paced,zero_mul,zero_mul,Nat.zero_div] at there
        omega
      · omega
    have := anchor.run_at_le v
    omega

variable {anchors : OrdMap RunId Anchor} {run_id : RunId}

theorem Anchor.run_at_self (run : anchor.run_ns ≤ u64_max) : anchor.run_at anchor.venue_us = anchor.run_ns := by
  simp [run_at,run]

/-- The anchor is a fresh one, or the one that was there, of the same pace and not behind. -/
theorem current_cases (anchors : OrdMap RunId Anchor) (run_id : RunId) (view : ClockView) (pace : Nat × Nat) (v : Nat) :
    current anchors run_id view pace v = ⟨view.now,v,pace⟩ ∨
    anchors.get? run_id = some (current anchors run_id view pace v) ∧ (current anchors run_id view pace v).pace = pace ∧
      (current anchors run_id view pace v).venue_us ≤ v ∧ view.now ≤ (current anchors run_id view pace v).run_at v := by
  simp only [current]
  split_ifs with restarts
  · exact .inl rfl
  · simp only [not_or,not_not,not_lt] at restarts
    cases found : anchors.get? run_id with
    | none => exact .inl rfl
    | some anchor =>
      rw [found] at restarts
      exact .inr ⟨rfl,restarts⟩

theorem current_pace (anchors : OrdMap RunId Anchor) (run_id : RunId) (view : ClockView) (pace : Nat × Nat) (v : Nat) :
    (current anchors run_id view pace v).pace = pace := by
  rcases current_cases anchors run_id view pace v with fresh | ⟨_,same,_⟩
  · rw [fresh]
  · exact same

theorem RunClock.now_le_stamp (clock : RunClock) (run_id : RunId) (now : view.now ≤ u64_max) (v : Nat) :
    view.now ≤ (clock.stamp run_id view v).1 := by
  unfold stamp
  split
  · exact le_rfl
  · rename_i pace _
    rcases current_cases clock.anchors run_id view pace v with fresh | ⟨_,_,_,not_behind⟩
    · simp only [fresh]
      exact (@Anchor.run_at_self ⟨view.now,v,pace⟩ now).ge
    · exact not_behind

end Pacing

/-- The stamps of calls with any views and venue instants. -/
def RunClock.stamps (clock : RunClock) : List (RunId × ClockView × Nat) → List (ClockView × Nat)
  | [] => []
  | (run_id,view,venue_us) :: calls =>
    let (time,clock) := clock.stamp run_id view venue_us
    (view,time) :: clock.stamps calls

/-- The clock and the pace of a view are words. -/
def ClockView.Fits (view : ClockView) : Prop := view.now ≤ u64_max ∧ ∀ pace ∈ view.pace, pace.2 ≤ u64_max

theorem RunClock.tick_on_time {clock clock' later : RunClock} {run_id : RunId} {view : ClockView} {due now_us at_us : Nat}
    (asked : clock.venue_instant run_id view due now_us = (some at_us,clock')) (fits : view.Fits)
    (same : later.anchors.get? run_id = clock'.anchors.get? run_id)
    (unsaturated : ∀ anchor ∈ later.anchors.get? run_id, anchor.Unsaturated due) :
    due ≤ (later.stamp run_id view at_us).1 := by
  have not_behind := later.now_le_stamp run_id fits.1 at_us
  unfold venue_instant at asked
  split at asked
  · cases asked
  · rename_i pace paces
    have kept := current_pace clock.anchors run_id view pace now_us
    generalize current clock.anchors run_id view pace now_us = anchor at asked kept
    cases asked
    rw [OrdMap.get?_insert_self] at same
    have unsaturated := unsaturated anchor same
    obtain ⟨step,interval⟩ := ClockView.pace_pos paces
    have reached := (Anchor.first (kept ▸ step) (kept ▸ interval)
      (kept ▸ (fits.2 pace paces).trans (by decide)) unsaturated).1
    have on := anchor.venue_at_eq unsaturated
    simp only [stamp,paces,current,same,Option.getD_some] at not_behind ⊢
    split_ifs at not_behind ⊢ with restarts
    · rcases restarts with other | early | behind
      · exact absurd kept other
      · omega
      · have start : Anchor.run_at ⟨view.now,anchor.venue_at due,pace⟩ (anchor.venue_at due) = view.now :=
          @Anchor.run_at_self ⟨view.now,anchor.venue_at due,pace⟩ fits.1
        omega
    · exact reached

/-- The instant given for a run time is the first at which run time is there, so that a tick queued for it is stamped at or
    after what was due, and no stamp is behind the clock. -/
theorem ticks_are_stamped_on_time :
    (∀ (anchor : Anchor) (r : Nat), 0 < anchor.pace.1 → 0 < anchor.pace.2 → anchor.pace.2 ≤ u64_max → anchor.run_ns < r →
      anchor.Unsaturated r →
      r ≤ anchor.run_at (anchor.venue_at r) ∧ ∀ v < anchor.venue_at r, anchor.run_at v < r) ∧
    (∀ (clock clock' later : RunClock) (run_id : RunId) (view : ClockView) (due now_us at_us : Nat),
      clock.venue_instant run_id view due now_us = (some at_us,clock') → view.Fits →
      later.anchors.get? run_id = clock'.anchors.get? run_id →
      (∀ anchor ∈ later.anchors.get? run_id, anchor.Unsaturated due) → due ≤ (later.stamp run_id view at_us).1) ∧
    ∀ (clock : RunClock) (calls : List (RunId × ClockView × Nat)), (∀ call ∈ calls, call.2.1.Fits) →
      ∀ stamped ∈ clock.stamps calls, stamped.1.now ≤ stamped.2 := by
  refine ⟨fun anchor r step interval word later unsaturated => ?_,fun _ _ _ _ _ _ _ _ => RunClock.tick_on_time,
    fun clock calls fit => ?_⟩
  · obtain ⟨there,first⟩ := Anchor.first step interval (word.trans (by decide)) unsaturated
    exact ⟨there,first later⟩
  · induction calls generalizing clock with
    | nil => exact fun _ none => (nomatch none)
    | cons call calls ih =>
      obtain ⟨run_id,view,venue_us⟩ := call
      intro stamped member
      rcases List.mem_cons.mp member with rfl | later
      · exact clock.now_le_stamp run_id (fit _ List.mem_cons_self).1 venue_us
      · exact ih _ (fun call member => fit call (List.mem_cons_of_mem _ member)) stamped later

theorem ticks_are_stamped_in_thirds : let anchor : Anchor := ⟨10,5,(1000,3000)⟩
    anchor.venue_at 1011 = 9 ∧ 1011 ≤ anchor.run_at 9 ∧ ∀ v < 9, anchor.run_at v < 1011 := by
  have here : (⟨10,5,(1000,3000)⟩ : Anchor).venue_at 1011 = 9 := by decide
  have holds := ticks_are_stamped_on_time.1 ⟨10,5,(1000,3000)⟩ 1011 (by decide) (by decide) (by decide) (by decide)
    ⟨by decide,by rw [here]; decide⟩
  rw [here] at holds
  exact ⟨here,holds⟩

/-! ### Pauses -/

/-- What happens at the clock. An input of a run is stamped at its release instant and leaves the run as it does. The timer
    reads a run and the venue clock together, and later asks for an instant by one of its readings. -/
inductive ClockEvent
  | Stamped (run_id : RunId) (venue_us : Nat) (after : ClockView)
  | Read (run_id : RunId) (now_us : Nat)
  | Asked (reading : Nat) (at_ns : Nat)

/-- The run clock with the runs as they are, what the timer has read, the venue clock and the last release instant. -/
structure Timekeeping where
  clock : RunClock := {}
  views : RunId → ClockView
  readings : List (RunId × ClockView × Nat) := []
  now_us : Nat := 0
  released_us : Nat := 0

namespace Timekeeping

/-- The venue clock does not go back, and inputs are released in order. -/
def Allows (s : Timekeeping) : ClockEvent → Prop
  | .Stamped _ venue_us _ => s.released_us ≤ venue_us
  | .Read _ now_us => s.now_us ≤ now_us
  | .Asked _ _ => True

def step (s : Timekeeping) : ClockEvent → Timekeeping
  | .Stamped run_id venue_us after => { s with
      clock := (s.clock.stamp run_id (s.views run_id) venue_us).2
      views := Function.update s.views run_id after
      now_us := max s.now_us venue_us
      released_us := venue_us }
  | .Read run_id now_us => { s with readings := s.readings ++ [(run_id,s.views run_id,now_us)], now_us }
  | .Asked reading at_ns =>
    match s.readings[reading]? with
    | some (run_id,view,now_us) => { s with clock := (s.clock.venue_instant run_id view at_ns now_us).2 }
    | none => s

def run (s : Timekeeping) (events : List ClockEvent) : Timekeeping := events.foldl step s

def Allowed (s : Timekeeping) : List ClockEvent → Prop
  | [] => True
  | event :: events => s.Allows event ∧ (s.step event).Allowed events

/-- Since a run was resumed at a venue instant with its clock at `frozen`, which has not moved: every anchor of it is no
    further and no earlier than that, and so is every reading of it while it follows venue time. -/
structure Resumed (run_id : RunId) (frozen b : Nat) (known : List (RunId × ClockView × Nat)) (s : Timekeeping) : Prop where
  view : (s.views run_id).now = frozen
  now : b ≤ s.now_us
  released : b ≤ s.released_us
  anchored : ∀ anchor ∈ s.clock.anchors.get? run_id, anchor.run_ns ≤ frozen ∧ b ≤ anchor.venue_us
  readings : ∃ more, s.readings = known ++ more ∧ ∀ reading ∈ more, reading.1 = run_id → reading.2.1.now = frozen ∧ b ≤ reading.2.2

section Resumed
variable {run_id : RunId} {frozen b : Nat} {known : List (RunId × ClockView × Nat)} {s : Timekeeping} {v : Nat}
  {other : RunId}

theorem current_anchored {anchors : OrdMap RunId Anchor} {view : ClockView} {pace : Nat × Nat}
    (anchored : ∀ anchor ∈ anchors.get? run_id, anchor.run_ns ≤ frozen ∧ b ≤ anchor.venue_us) (now : view.now ≤ frozen)
    (after : b ≤ v) :
    (current anchors run_id view pace v).run_ns ≤ frozen ∧ b ≤ (current anchors run_id view pace v).venue_us := by
  rcases current_cases anchors run_id view pace v with fresh | ⟨found,_⟩
  · rw [fresh]
    exact ⟨now,after⟩
  · exact anchored _ found

variable (resumed : Resumed run_id frozen b known s)
include resumed

theorem Resumed.stamped {after : ClockView}
    (later : s.released_us ≤ v) (unchanged : other = run_id → after.now = frozen) :
    Resumed run_id frozen b known (s.step (.Stamped other v after)) := by
  have later := resumed.released.trans later
  refine ⟨?_,resumed.now.trans (Nat.le_max_left ..),later,fun anchor found => ?_,resumed.readings⟩
  · simp only [step,Function.update_apply]
    split_ifs with here
    · exact unchanged here.symm
    · exact resumed.view
  · simp only [step,RunClock.stamp] at found
    split at found
    · exact resumed.anchored anchor (OrdMap.of_erase found)
    · rw [OrdMap.get?_insert] at found
      split_ifs at found with here
      · cases found
        subst here
        exact current_anchored resumed.anchored resumed.view.le later
      · exact resumed.anchored anchor found

theorem Resumed.read {now_us : Nat} (later : s.now_us ≤ now_us) :
    Resumed run_id frozen b known (s.step (.Read other now_us)) := by
  obtain ⟨more,readings,current⟩ := resumed.readings
  refine ⟨resumed.view,resumed.now.trans later,resumed.released,resumed.anchored,more ++ [(other,s.views other,now_us)],?_,?_⟩
  · simp only [step,readings,List.append_assoc]
  · intro reading member here
    rcases List.mem_append.mp member with old | new
    · exact current reading old here
    · obtain rfl := List.mem_singleton.mp new
      obtain rfl : other = run_id := here
      exact ⟨resumed.view,resumed.now.trans later⟩

/-- A reading of the run as it followed venue time before is not used. -/
theorem Resumed.asked {i at_ns : Nat} (fresh : ∀ reading ∈ known[i]?, reading.1 = run_id → reading.2.1.pace = none) :
    Resumed run_id frozen b known (s.step (.Asked i at_ns)) := by
  simp only [step]
  split
  · rename_i other view now_us found
    refine { resumed with anchored := fun anchor there => ?_ }
    simp only [RunClock.venue_instant] at there
    split at there
    · exact resumed.anchored anchor there
    · rename_i pace paces
      rw [OrdMap.get?_insert] at there
      split_ifs at there with here
      · cases there
        subst here
        obtain ⟨more,readings,current⟩ := resumed.readings
        rw [readings,List.getElem?_append] at found
        split_ifs at found
        · rw [fresh _ found rfl] at paces
          cases paces
        · obtain ⟨now,after⟩ := current _ (List.mem_of_getElem? found) rfl
          exact current_anchored resumed.anchored now.le after
      · exact resumed.anchored anchor there
  · exact resumed

theorem Resumed.run {events : List ClockEvent} (allowed : s.Allowed events)
    (unchanged : ∀ venue_us after, .Stamped run_id venue_us after ∈ events → after.now = frozen)
    (fresh : ∀ i at_ns, .Asked i at_ns ∈ events → ∀ reading ∈ known[i]?, reading.1 = run_id → reading.2.1.pace = none) :
    Resumed run_id frozen b known (s.run events) := by
  induction events generalizing s with
  | nil => exact resumed
  | cons event events ih =>
    refine ih ?_ allowed.2 (fun _ _ member => unchanged _ _ (List.mem_cons_of_mem _ member))
      fun _ _ member => fresh _ _ (List.mem_cons_of_mem _ member)
    cases event with
    | Stamped other v after =>
      exact resumed.stamped allowed.1 fun here => unchanged v after (by rw [here]; exact List.mem_cons_self)
    | Read other now_us => exact resumed.read allowed.1
    | Asked i at_ns => exact resumed.asked (fresh i at_ns List.mem_cons_self)

theorem Resumed.stamp_le (later : b ≤ v) :
    (s.clock.stamp run_id (s.views run_id) v).1 ≤ frozen + (s.views run_id).pace.elim 0 (fun pace => paced pace (v - b)) := by
  simp only [RunClock.stamp]
  split
  · exact (resumed.view.trans_le (Nat.le_add_right ..))
  · rename_i pace paces
    have ⟨run,venue⟩ := @current_anchored _ _ _ _ _ _ pace resumed.anchored resumed.view.le later
    have same := current_pace s.clock.anchors run_id (s.views run_id) pace v
    have passed := Anchor.run_at_le (current s.clock.anchors run_id (s.views run_id) pace v) v
    rw [same] at passed
    have less := @paced_mono pace _ _ (Nat.sub_le_sub_left venue v)
    rw [paces,Option.elim_some]
    omega

end Resumed

/-- Stamps after a resume count from the resume on, as long as the timer asks by no reading of the run from when it followed
    venue time before. -/
theorem paused_time_is_not_counted (s : Timekeeping) (run_id : RunId) (b v : Nat) (resumed : ClockView)
    (later : List ClockEvent) (paused : (s.views run_id).active = false) (unmoved : resumed.now = (s.views run_id).now)
    (allowed : s.Allowed (.Stamped run_id b resumed :: later)) (after : b ≤ v)
    (unchanged : ∀ venue_us after, .Stamped run_id venue_us after ∈ later → after.now = resumed.now)
    (fresh : ∀ i at_ns, .Asked i at_ns ∈ later → ∀ reading ∈ s.readings[i]?, reading.1 = run_id → reading.2.1.pace = none) :
    let t := s.run (.Stamped run_id b resumed :: later)
    (t.clock.stamp run_id (t.views run_id) v).1 ≤
      (s.views run_id).now + (t.views run_id).pace.elim 0 (fun pace => paced pace (v - b)) := by
  have still : (s.views run_id).pace = none := by
    unfold ClockView.pace
    split <;> simp [paused]
  have start : Resumed run_id resumed.now b s.readings (s.step (.Stamped run_id b resumed)) := by
    refine ⟨by simp [step],Nat.le_max_right ..,le_rfl,fun anchor found => ?_,[],by simp [step]⟩
    simp [step,RunClock.stamp,still] at found
  rw [← unmoved]
  exact (start.run allowed.2 unchanged fresh).stamp_le after

/-- The timer asks by a reading of the paused run and by one of the resumed run. -/
theorem paused_time_is_not_counted_twice_paced : let view : ClockView := ⟨7,2000,.Paced 1000,true⟩
    let s : Timekeeping := { views := fun _ => { view with active := false }, readings := [(1,{ view with active := false },50)] }
    (((s.run [.Stamped 1 100 view,.Asked 0 5,.Read 1 105,.Asked 1 6,.Stamped 1 110 view]).clock.stamp 1 view 130).1 ≤
      7 + paced (2000,1000) (130 - 100)) := by
  intro view s
  refine paused_time_is_not_counted s 1 100 130 view [.Asked 0 5,.Read 1 105,.Asked 1 6,.Stamped 1 110 view] rfl rfl
    ⟨(by decide : 0 ≤ 100),trivial,(by decide : 100 ≤ 105),trivial,(by decide : 100 ≤ 110),trivial⟩ (by decide)
    (fun _ _ member => by simp_all) fun i at_ns member reading found _ => ?_
  rcases i with _ | i
  · cases found
    rfl
  · cases found

/-- A run that follows venue time is read, paused at 10 and resumed at 1000. A question by the old reading then makes the
    next stamp count from 0. -/
theorem stale_reading_counts_the_pause : let view : ClockView := ⟨0,1000,.Paced 1000,true⟩
    let s : Timekeeping := { views := fun _ => view }
    let events : List ClockEvent := [.Read 1 0,.Stamped 1 10 { view with active := false },.Stamped 1 1000 view,.Asked 0 5]
    s.Allowed (events ++ [.Stamped 1 1000 view]) ∧ ((s.run events).clock.stamp 1 view 1000).1 = 1000000 ∧
      view.now + paced (1000,1000) (1000 - 1000) = 0 :=
  ⟨⟨(by decide : 0 ≤ 0),(by decide : 0 ≤ 10),(by decide : 10 ≤ 1000),trivial,(by decide : 1000 ≤ 1000),trivial⟩,by decide,
    by decide⟩

end Timekeeping
end Bunting
