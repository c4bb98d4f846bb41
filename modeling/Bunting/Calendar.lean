import Bunting.MarketEvents

/-!
The trading calendar. Each venue has one session a trading day, given as
offsets from the start of the day, and crosses four boundaries in it. A venue's
progress is the number of boundaries it has passed.
-/

namespace Bunting

def MAX_CALENDAR_DAYS : Nat := 3660

/-- Boundaries of one trading day: pre-open, open, closing call, close. -/
def BOUNDARIES_PER_DAY : Nat := 4

/-- The daily session of one venue. -/
structure VenueSession where
  venue_id : VenueId
  pre_open_ns : Nat
  open_ns : Nat
  closing_call_ns : Nat
  close_ns : Nat
  deriving DecidableEq

/-- Day `d` starts at run time `d * day_ns`. -/
structure Calendar where
  day_ns : Nat
  days : Nat
  holidays : OrdSet Nat := ∅
  sessions : List VenueSession
  deriving DecidableEq

/-- When a boundary is, the phase it starts, and its day. -/
structure Boundary where
  at_ns : Nat
  phase : SessionPhase
  day : Nat
  deriving DecidableEq

namespace Calendar

/-- The calendar covers exactly `venues`, its offsets are ordered and lie
    inside one day, and every boundary is representable. -/
def is_valid (calendar : Calendar) (venues : OrdSet VenueId) : Bool :=
  let covered : OrdSet VenueId := OrdMap.ofList (calendar.sessions.map (fun session => (session.venue_id,())))
  decide (0 < calendar.day_ns) && decide (1 ≤ calendar.days ∧ calendar.days ≤ MAX_CALENDAR_DAYS) &&
    (to_u64 (calendar.day_ns * calendar.days)).isSome && calendar.holidays.keys.all (fun day => day < calendar.days) &&
    covered.size == calendar.sessions.length &&
    decide ((calendar.sessions.map VenueSession.venue_id).Pairwise (· ≤ ·)) && decide (covered = venues) &&
    calendar.sessions.all (fun session => session.pre_open_ns ≤ session.open_ns ∧
      session.open_ns ≤ session.closing_call_ns ∧ session.closing_call_ns ≤ session.close_ns ∧
      session.close_ns ≤ calendar.day_ns)

/-- The source searches by bisection; the venues of a valid calendar are sorted and distinct. -/
def session (calendar : Calendar) (venue : VenueId) : Option VenueSession :=
  calendar.sessions.find? (fun session => session.venue_id = venue)

/-- The trading (non-holiday) day number `index`. -/
def trading_day (calendar : Calendar) (index : Nat) : Option Nat :=
  ((List.range calendar.days).filter (fun day => !calendar.holidays.contains day))[index]?

/-- Boundary number `step` of a venue's sessions, if the calendar has that many. -/
def boundary (calendar : Calendar) (venue : VenueId) (step : Nat) : Option Boundary := do
  let session ← calendar.session venue
  let day ← calendar.trading_day (step / BOUNDARIES_PER_DAY)
  let (offset,phase) := match step % BOUNDARIES_PER_DAY with
    | 0 => (session.pre_open_ns,SessionPhase.PreOpen)
    | 1 => (session.open_ns,SessionPhase.Continuous)
    | 2 => (session.closing_call_ns,SessionPhase.ClosingCall)
    | _ => (session.close_ns,SessionPhase.Closed)
  let start ← to_u64 (calendar.day_ns * day)
  let at_ns ← to_u64 (start + offset)
  pure ⟨at_ns,phase,day⟩

/-- The phase a venue is in after passing `steps` boundaries. -/
def phase_after (steps : Nat) : SessionPhase :=
  if steps = 0 then .Closed
  else match (steps - 1) % BOUNDARIES_PER_DAY with
    | 0 => .PreOpen
    | 1 => .Continuous
    | 2 => .ClosingCall
    | _ => .Closed

/-- A venue has four boundaries for each day of the calendar at most. -/
theorem step_lt_of_boundary {calendar : Calendar} {venue : VenueId} {step : Nat} {b : Boundary}
    (found : calendar.boundary venue step = some b) : step < BOUNDARIES_PER_DAY * calendar.days := by
  simp only [boundary,Option.bind_eq_bind,Option.bind_eq_some_iff] at found
  obtain ⟨_,_,day,trading,_⟩ := found
  have short := (List.getElem?_eq_some_iff.mp trading).1
  have fewer := short.trans_le ((List.length_filter_le _ _).trans_eq List.length_range)
  unfold BOUNDARIES_PER_DAY at *
  omega

section Order
variable {calendar : Calendar} {venues : OrdSet VenueId} {venue : VenueId} {step step' : Nat} {b b' : Boundary}
  {session : VenueSession}

/-- The offset of a boundary from the start of its day. -/
def offset (session : VenueSession) : Nat → Nat
  | 0 => session.pre_open_ns
  | 1 => session.open_ns
  | 2 => session.closing_call_ns
  | _ => session.close_ns

theorem boundary_some (found : calendar.boundary venue step = some b) :
    ∃ session, calendar.session venue = some session ∧ calendar.trading_day (step / BOUNDARIES_PER_DAY) = some b.day ∧
      b.at_ns = calendar.day_ns * b.day + offset session (step % BOUNDARIES_PER_DAY) ∧ b.phase = phase_after (step + 1) := by
  simp only [boundary,Option.bind_eq_bind,Option.bind_eq_some_iff] at found
  obtain ⟨session,holds,day,trading,start,starts,at_ns,fits,made⟩ := found
  cases made
  refine ⟨session,holds,trading,?_,?_⟩
  · rw [to_u64_some fits,to_u64_some starts,Nat.add_right_inj]
    unfold offset
    split <;> simp_all
  · unfold phase_after
    rw [if_neg (by omega),Nat.add_sub_cancel]
    split <;> simp_all

/-- The session of a venue in a valid calendar lies within the day, in order. -/
theorem session_ordered (valid : calendar.is_valid venues = true) (found : calendar.session venue = some session) :
    session.pre_open_ns ≤ session.open_ns ∧ session.open_ns ≤ session.closing_call_ns ∧
      session.closing_call_ns ≤ session.close_ns ∧ session.close_ns ≤ calendar.day_ns := by
  simp only [is_valid,Bool.and_eq_true] at valid
  have ordered := List.all_eq_true.mp valid.2 session (List.mem_of_find?_eq_some found)
  exact of_decide_eq_true ordered

theorem offset_le (valid : calendar.is_valid venues = true)
    (found : calendar.session venue = some session) {i j : Nat} (le : i ≤ j) :
    offset session i ≤ offset session j ∧ offset session j ≤ calendar.day_ns := by
  obtain ⟨pre_open,opens,closing,closes⟩ := session_ordered valid found
  rcases i with _ | _ | _ | i <;> rcases j with _ | _ | _ | j <;> simp only [offset] <;> omega

theorem trading_day_lt {i j day day' : Nat} (lt : i < j) (first : calendar.trading_day i = some day)
    (second : calendar.trading_day j = some day') : day < day' := by
  obtain ⟨bound,rfl⟩ := List.getElem?_eq_some_iff.mp first
  obtain ⟨bound',rfl⟩ := List.getElem?_eq_some_iff.mp second
  exact List.pairwise_iff_getElem.mp (List.pairwise_lt_range.filter _) i j bound bound' lt

/-- A venue's boundaries come in the order of time. -/
theorem boundary_le (valid : calendar.is_valid venues = true) (le : step ≤ step')
    (found : calendar.boundary venue step = some b) (later : calendar.boundary venue step' = some b') :
    b.at_ns ≤ b'.at_ns := by
  obtain ⟨session,holds,day,at_ns,_⟩ := boundary_some found
  obtain ⟨session',holds',day',at_ns',_⟩ := boundary_some later
  cases holds.symm.trans holds'
  rw [at_ns,at_ns']
  rcases (Nat.div_le_div_right le (c := BOUNDARIES_PER_DAY)).lt_or_eq with earlier | same
  · -- A day ends before the next one starts.
    have days := trading_day_lt earlier day day'
    have short := (offset_le valid holds (le_refl (step % BOUNDARIES_PER_DAY))).2
    calc calendar.day_ns * b.day + offset session (step % BOUNDARIES_PER_DAY)
        ≤ calendar.day_ns * (b.day + 1) := by rw [Nat.mul_add,Nat.mul_one]; omega
      _ ≤ calendar.day_ns * b'.day := Nat.mul_le_mul_left _ days
      _ ≤ calendar.day_ns * b'.day + offset session (step' % BOUNDARIES_PER_DAY) := Nat.le_add_right _ _
  · rw [same] at day
    have day := Option.some.inj (day.symm.trans day')
    rw [day]
    have within := (offset_le (i := step % BOUNDARIES_PER_DAY) (j := step' % BOUNDARIES_PER_DAY) valid holds
      (by unfold BOUNDARIES_PER_DAY at *; omega)).1
    omega

theorem mem_trading_days {day : Nat} :
    (∃ index, calendar.trading_day index = some day) ↔ day < calendar.days ∧ calendar.holidays.contains day = false := by
  unfold trading_day
  rw [← List.mem_iff_getElem?,List.mem_filter,List.mem_range,Bool.not_eq_true']

/-- A trading day has all its four boundaries: none of a valid calendar is out of range. -/
theorem boundary_eq (valid : calendar.is_valid venues = true)
    (holds : calendar.session venue = some session) (step : Nat) :
    calendar.boundary venue step = (calendar.trading_day (step / BOUNDARIES_PER_DAY)).map fun day =>
      ⟨calendar.day_ns * day + offset session (step % BOUNDARIES_PER_DAY),phase_after (step + 1),day⟩ := by
  cases trading : calendar.trading_day (step / BOUNDARIES_PER_DAY) with
  | none => simp [boundary,holds,trading]
  | some day =>
    have inside := (mem_trading_days.mp ⟨_,trading⟩).1
    have fits : calendar.day_ns * calendar.days ≤ 18446744073709551615 := by
      simp only [is_valid,Bool.and_eq_true] at valid
      obtain ⟨total,sum⟩ := Option.isSome_iff_exists.mp valid.1.1.1.1.1.2
      unfold to_u64 at sum
      split_ifs at sum
      assumption
    have within := (offset_le valid holds (le_refl (step % BOUNDARIES_PER_DAY))).2
    have ends : calendar.day_ns * day + offset session (step % BOUNDARIES_PER_DAY) ≤ calendar.day_ns * calendar.days :=
      calc calendar.day_ns * day + offset session (step % BOUNDARIES_PER_DAY)
          ≤ calendar.day_ns * (day + 1) := by rw [Nat.mul_add,Nat.mul_one]; omega
        _ ≤ calendar.day_ns * calendar.days := Nat.mul_le_mul_left _ inside
    have start : to_u64 (calendar.day_ns * day) = some (calendar.day_ns * day) := if_pos (by omega)
    have ends : to_u64 (calendar.day_ns * day + offset session (step % BOUNDARIES_PER_DAY)) = some _ := if_pos (by omega)
    unfold phase_after
    unfold offset at ends ⊢
    simp only [boundary,holds,trading,Option.bind_eq_bind,Option.bind_some,start]
    split at ends <;> simp_all

/-- A venue that has a boundary has those before it. -/
theorem boundary_of_le (valid : calendar.is_valid venues = true) (le : step ≤ step')
    (later : calendar.boundary venue step' = some b') : ∃ b, calendar.boundary venue step = some b := by
  obtain ⟨session,holds,day',_,_⟩ := boundary_some later
  have short := (List.getElem?_eq_some_iff.mp day').1
  have bound := (Nat.div_le_div_right le (c := BOUNDARIES_PER_DAY)).trans_lt short
  have trading : calendar.trading_day (step / BOUNDARIES_PER_DAY) = some _ := List.getElem?_eq_getElem bound
  rw [boundary_eq valid holds,trading]
  exact ⟨_,rfl⟩

end Order

end Calendar

end Bunting
