import Bunting.Runs
import Bunting.Traces

/-!
The life of an order in the events of a whole run. Until it ends, what has
traded of an accepted order and what remains of it make up its quantity; it ends
once, and no later step trades it.
-/

namespace Bunting
open Stateful

/-! ### The course of an order -/

/-- An event that ends an order of a quantity of which some has traded: all of it, or all but what is canceled. -/
def Ends (quantity done : Int) : EventPayload → Prop
  | .OrderCompleted _ => done = quantity
  | .OrderCanceled _ _ _ _ remaining _ => 0 < remaining ∧ done + remaining = quantity
  | _ => False

/-- Where an order of a quantity stands after some events, with its record. The
    last execution of an arriving order comes before the event that completes it. -/
inductive Course (id : OrderId) (quantity : Int) (payloads : List EventPayload) (record : Option OwnedOrder) : Prop
  | unseen (absent : record = none) (silent : .OrderAccepted id ∉ payloads) (untraded : traded id payloads = 0)
      (endless : endings id payloads = [])
  | live {owned} (found : record = some owned)
      (state : owned.state = .Active ∨ (owned.state = .Filled ∧ owned.remaining_quantity = 0))
      (told : .OrderAccepted id ∈ payloads) (account : traded id payloads + owned.remaining_quantity = quantity)
      (endless : endings id payloads = [])
  | done (told : .OrderAccepted id ∈ payloads) (ended : endings id payloads ≠ [])
      (ends : ∀ payload ∈ endings id payloads, Ends quantity (traded id payloads) payload)
      (rest : ∀ owned, record = some owned →
        owned.state ≠ .Active ∧ (owned.state = .Filled → traded id payloads = quantity))

section Events
variable {id : OrderId} {quantity n : Int} {payloads more : List EventPayload} {record : Option OwnedOrder}
  {owned : OwnedOrder} {payload : EventPayload}

/-- Events that do not concern the order. -/
def Silent (id : OrderId) (more : List EventPayload) : Prop :=
  ∀ payload ∈ more, payload.traded id = 0 ∧ payload.terminal ≠ some id ∧ payload ≠ .OrderAccepted id

theorem EventPayload.Apart.silent (apart : payload.Apart id) :
    payload.traded id = 0 ∧ payload.terminal ≠ some id ∧ payload ≠ .OrderAccepted id := by
  refine ⟨?_,apart.2⟩
  have untraded := apart.1
  cases payload with
  | TradeExecuted _ _ _ _ _ _ _ _ _ _ =>
    simp only [trades,decide_eq_false_iff_not,not_or] at untraded
    simp [traded,untraded]
  | _ => rfl

theorem Silent.counts (silent : Silent id more) :
    traded id more = 0 ∧ endings id more = [] ∧ .OrderAccepted id ∉ more := by
  refine ⟨List.sum_eq_zero fun n member => ?_,List.filter_eq_nil_iff.mpr fun payload member => ?_,fun told => ?_⟩
  · obtain ⟨payload,inside,rfl⟩ := List.mem_map.mp member
    exact (silent payload inside).1
  · simpa using (silent payload member).2.1
  · exact (silent _ told).2.2 rfl

theorem Course.silent (course : Course id quantity payloads record) (silent : Silent id more) :
    Course id quantity (payloads ++ more) record := by
  obtain ⟨untraded,endless,untold⟩ := silent.counts
  have same : traded id (payloads ++ more) = traded id payloads := by rw [traded_append,untraded,add_zero]
  have ends : endings id (payloads ++ more) = endings id payloads := by rw [endings_append,endless,List.append_nil]
  cases course with
  | unseen absent silent none endless =>
    exact .unseen absent (by simp [silent,untold]) (same.trans none) (ends.trans endless)
  | live found state told account endless =>
    exact .live found state (List.mem_append_left _ told) (by rw [same]; exact account) (ends.trans endless)
  | done told ended closes rest =>
    exact .done (List.mem_append_left _ told) (by rw [ends]; exact ended) (by rw [ends,same]; exact closes)
      (by rw [same]; exact rest)

variable (course : Course id quantity payloads (some owned))
include course

theorem Course.account (live : owned.state = .Active) :
    .OrderAccepted id ∈ payloads ∧ traded id payloads + owned.remaining_quantity = quantity ∧ endings id payloads = [] := by
  cases course with
  | unseen absent _ _ _ => cases absent
  | live found _ told account endless =>
    cases found
    exact ⟨told,account,endless⟩
  | done _ _ _ rest => exact absurd live (rest owned rfl).1

/-- An execution of a live order, with the event that completes it if it says so. -/
theorem Course.fill (live : owned.state = .Active) (trade : traded id more = n)
    (ending : endings id more = [] ∨ (endings id more = [.OrderCompleted id] ∧ owned.remaining_quantity = n)) :
    Course id quantity (payloads ++ more) (some (owned.reduced n)) := by
  obtain ⟨told,account,endless⟩ := course.account live
  have total : traded id (payloads ++ more) = traded id payloads + n := by rw [traded_append,trade]
  rcases ending with none | ⟨completes,spent⟩
  · refine .live rfl ?_ (List.mem_append_left _ told) ?_ (by rw [endings_append,endless,none]; rfl)
    · by_cases spent : owned.remaining_quantity - n = 0
      · exact .inr ⟨by simp [OwnedOrder.reduced,spent],by simp [OwnedOrder.reduced,spent]⟩
      · exact .inl (by simp [OwnedOrder.reduced,spent,live])
    · rw [total]
      simp only [OwnedOrder.reduced]
      omega
  · have ends : endings id (payloads ++ more) = [.OrderCompleted id] := by rw [endings_append,endless,completes]; rfl
    have all : traded id (payloads ++ more) = quantity := by rw [total]; omega
    refine .done (List.mem_append_left _ told) (by rw [ends]; simp) (fun payload member => ?_) fun next found => ?_
    · rw [ends] at member
      rw [List.mem_singleton.mp member]
      exact all
    · cases found
      refine ⟨?_,fun _ => all⟩
      simp [OwnedOrder.reduced,spent]

theorem Course.cancel (live : owned.state = .Active)
    (positive : 0 < owned.remaining_quantity) (participant : ParticipantId) (instrument : InstrumentId)
    (key : Option ListingKey) (reason : CancelReason) :
    Course id quantity (payloads ++ [.OrderCanceled id participant instrument key owned.remaining_quantity reason])
      (some owned.canceled) := by
  obtain ⟨told,account,endless⟩ := course.account live
  have same : traded id (payloads ++ [.OrderCanceled id participant instrument key owned.remaining_quantity reason]) =
      traded id payloads := by simp [traded,EventPayload.traded]
  have ends : endings id (payloads ++ [.OrderCanceled id participant instrument key owned.remaining_quantity reason]) =
      [.OrderCanceled id participant instrument key owned.remaining_quantity reason] := by
    rw [endings_append,endless]
    simp [endings,EventPayload.terminal]
  refine .done (List.mem_append_left _ told) (by rw [ends]; simp) (fun payload member => ?_) fun next found => ?_
  · rw [ends] at member
    rw [List.mem_singleton.mp member,same]
    exact ⟨positive,account⟩
  · cases found
    exact ⟨by simp [OwnedOrder.canceled],fun filled => absurd filled (by simp [OwnedOrder.canceled])⟩

theorem Course.complete (spent : owned.state = .Filled) :
    Course id quantity (payloads ++ [.OrderCompleted id]) (some owned) := by
  have same : traded id (payloads ++ [.OrderCompleted id]) = traded id payloads := by
    simp [traded,EventPayload.traded]
  have ends : endings id (payloads ++ [.OrderCompleted id]) = endings id payloads ++ [.OrderCompleted id] := by
    rw [endings_append]
    simp [endings,EventPayload.terminal]
  have finish (told : .OrderAccepted id ∈ payloads) (all : traded id payloads = quantity)
      (before : ∀ payload ∈ endings id payloads, Ends quantity (traded id payloads) payload) :
      Course id quantity (payloads ++ [.OrderCompleted id]) (some owned) := by
    refine .done (List.mem_append_left _ told) (by rw [ends]; simp) (fun payload member => ?_) fun next found => ?_
    · rw [ends] at member
      rw [same]
      rcases List.mem_append.mp member with old | new
      · exact before payload old
      · rw [List.mem_singleton.mp new]
        exact all
    · cases found
      exact ⟨by rw [spent]; simp,fun _ => same.trans all⟩
  cases course with
  | unseen absent _ _ _ => cases absent
  | live found state told account endless =>
    cases found
    rcases state with live | ⟨_,none⟩
    · rw [spent] at live; cases live
    · exact finish told (by omega) (by rw [endless]; simp)
  | done told _ closes rest => exact finish told ((rest owned rfl).2 spent) closes

end Events

section Moves
variable {setup : Setup} {base : SimulationState} {now : Nat} {a b : Mode × Transition} {id : OrderId} {quantity : Int}
  {past : List EventPayload}

theorem Move.course (move : Move setup base now a b)
    (fresh : ∀ order, b.1.order = some order → order.order_id = id → a.1 = .Open →
      order.quantity = quantity ∧ .OrderAccepted id ∉ past ++ a.2.payloads)
    (course : Course id quantity (past ++ a.2.payloads) (a.2.run.ownership.get? id)) :
    Course id quantity (past ++ b.2.payloads) (b.2.run.ownership.get? id) := by
  obtain ⟨more,events,effect⟩ := move.effect id
  rw [events,← List.append_assoc]
  generalize a.2.run.ownership.get? id = record at course effect
  generalize b.2.run.ownership.get? id = record' at effect ⊢
  cases effect with
  | idle apart => exact course.silent fun payload member => (apart payload member).silent
  | filled live trade _ ending => exact course.fill live trade ending
  | canceled live positive => exact course.cancel live positive _ _ _ _
  | completed spent _ _ => exact course.complete spent
  | accepted _ _ _ opened taking named =>
    obtain ⟨same,silent⟩ := fresh _ (congrArg Mode.order taking) named opened
    cases course with
    | unseen _ _ untraded endless =>
      refine .live rfl (.inl rfl) (by simp) ?_ ?_
      · rw [traded_append,untraded]
        simp [traded,EventPayload.traded,SubmitOrder.owned,same]
      · rw [endings_append,endless]
        simp [endings,EventPayload.terminal]
    | live _ _ told _ _ => exact absurd told silent
    | done told _ _ _ => exact absurd told silent

theorem Moves.course (moves : Moves setup base now a b) (silent : ∀ id, .OrderAccepted id ∉ a.2.payloads)
    (fresh : ∀ order, b.1.order = some order → order.order_id = id → order.quantity = quantity ∧ .OrderAccepted id ∉ past)
    (course : Course id quantity (past ++ a.2.payloads) (a.2.run.ownership.get? id)) :
    Course id quantity (past ++ b.2.payloads) (b.2.run.ownership.get? id) := by
  induction moves with
  | refl => exact course
  | @tail c d before move ih =>
    refine move.course (fun order accepted named opened => ?_) (ih fun order accepted => fresh order (move.keeps_order accepted))
    obtain ⟨same,untold⟩ := fresh order accepted named
    refine ⟨same,fun told => (List.mem_append.mp told).elim untold fun new => ?_⟩
    obtain ⟨_,other,_⟩ := Moves.accepts before (silent id) new
    rw [opened] at other
    cases other

/-- The order has ended: its record, if there is one, is not live, and no event is about it. -/
def Gone (id : OrderId) (t : Transition) : Prop :=
  (∀ owned, t.run.ownership.get? id = some owned → owned.state ≠ .Active) ∧
  ∀ payload ∈ t.payloads, payload.trades id = false ∧ payload.terminal ≠ some id

/-- An order that has ended stays so, unless it is accepted again. -/
theorem Move.gone (move : Move setup base now a b) (untaken : ∀ order, b.1.order = some order → order.order_id ≠ id)
    (gone : Gone id a.2) : Gone id b.2 := by
  obtain ⟨more,events,effect⟩ := move.effect id
  obtain ⟨ended,silent⟩ := gone
  unfold Gone
  generalize a.2.run.ownership.get? id = record at ended effect
  generalize b.2.run.ownership.get? id = record' at effect ⊢
  cases effect with
  | idle apart =>
    refine ⟨ended,fun payload member => ?_⟩
    rw [events] at member
    exact (List.mem_append.mp member).elim (silent payload) fun new => ⟨(apart payload new).1,(apart payload new).2.1⟩
  | filled live _ _ _ | canceled live _ => exact absurd live (ended _ rfl)
  | accepted _ _ _ _ taking named => exact absurd named (untaken _ (congrArg Mode.order taking))
  | completed _ taken named => exact absurd named (untaken _ taken)

theorem Moves.gone (moves : Moves setup base now a b) (untaken : ∀ order, b.1.order = some order → order.order_id ≠ id)
    (gone : Gone id a.2) : Gone id b.2 := by
  induction moves with
  | refl => exact gone
  | tail _ move ih => exact move.gone untaken (ih fun order accepted => untaken order (move.keeps_order accepted))

end Moves

/-! ### One step -/

/-- Where an order stands between two steps: it is live, or it has ended once. -/
structure Settled (id : OrderId) (quantity : Int) (payloads : List EventPayload) (record : Option OwnedOrder) : Prop where
  course : Course id quantity payloads record
  live : ∀ owned, record = some owned → endings id payloads = [] → owned.state = .Active
  once : (endings id payloads).length ≤ 1

theorem endings_length (id : OrderId) (payloads : List EventPayload) :
    (endings id payloads).length = (payloads.filterMap EventPayload.terminal).count id := by
  induction payloads with
  | nil => rfl
  | cons payload rest ih =>
    unfold endings at ih ⊢
    rw [List.filter_cons,List.filterMap_cons]
    cases ends : payload.terminal with
    | none => simpa using ih
    | some j =>
      rw [List.count_cons]
      by_cases here : j = id
      · simp [here,ih]
      · simp [here,ih]

section Step
variable {s s' : RunState} {input : Input} {applied : Applied} {t : Transition} {id : OrderId} {quantity : Int}
  {past : List EventPayload}

variable (stepped : Stepped s input applied s' t)
include stepped

/-- The moves of a step: it ends open, or with the order submitted taken. -/
theorem Stepped.moves :
    ∃ mode, Moves s.setup s.simulation input.logical_time (.Open,{ run := s }) (mode,t) ∧
      (∀ order, mode.order = some order → input.submission = some order) ∧
      (mode = .Open ∨ ∃ order, mode = .Taken order) := by
  obtain ⟨F,stage,inv,taken⟩ := stepped.ended
  have moves := inv.moves
  rw [stage.setup,stage.base,stage.now,stage.start] at moves
  refine ⟨F.mode,moves,?_⟩
  rcases taken with opened | takes
  · refine ⟨fun order accepted => ?_,.inl opened⟩
    rw [opened] at accepted
    cases accepted
  · obtain ⟨placed,submits,same⟩ := Option.map_eq_some_iff.mp takes
    refine ⟨fun order accepted => ?_,.inr ⟨placed,same.symm⟩⟩
    rw [← same] at accepted
    cases accepted
    exact submits

theorem Stepped.accepts (told : .OrderAccepted id ∈ t.payloads) :
    ∃ order, input.submission = some order ∧ order.order_id = id := by
  obtain ⟨mode,moves,takes,_⟩ := stepped.moves
  obtain ⟨order,accepted,named⟩ := moves.accepts (by simp) told
  exact ⟨order,takes order accepted,named⟩

/-- A terminal order that no event ends was retired before the step. -/
theorem Stepped.retired (sane : Sane s) {owned : OwnedOrder}
    (found : t.run.ownership.get? id = some owned) (ended : owned.state ≠ .Active) (endless : endings id t.payloads = []) :
    ∃ before, s.ownership.get? id = some before ∧ before.state ≠ .Active := by
  obtain ⟨F,stage,inv,_⟩ := stepped.ended
  obtain ⟨mode,moves,_⟩ := stepped.moves
  have window : t.run.retired = s.retired := moves.keeps_window.1
  have finished := (inv.records.retirement.ended id (by simp)).mpr ⟨owned,found,ended⟩
  rw [window] at finished
  have none : id ∉ t.payloads.filterMap EventPayload.terminal := by
    rw [← List.count_eq_zero,← endings_length,endless]
    rfl
  have retired := (List.mem_append.mp finished).resolve_right none
  exact ((sane.inv 0).records.retirement.ended id (by simp)).mp (List.mem_append_left _ retired)

theorem Stepped.settled (sane : Sane s) (settled : Settled id quantity past (s.ownership.get? id))
    (fresh : ∀ order, input.submission = some order → order.order_id = id →
      order.quantity = quantity ∧ .OrderAccepted id ∉ past) :
    Settled id quantity (past ++ t.payloads) (s'.ownership.get? id) ∧
      (endings id past ≠ [] → ∀ payload ∈ t.payloads, payload.trades id = false) := by
  obtain ⟨mode,moves,takes,_⟩ := stepped.moves
  have course : Course id quantity (past ++ t.payloads) (t.run.ownership.get? id) :=
    moves.course (by simp) (fun order accepted named => fresh order (takes order accepted) named)
      (by simpa using settled.course)
  have gone (ended : endings id past ≠ []) : Gone id t := by
    cases settled.course with
    | unseen _ _ _ endless => exact absurd endless ended
    | live _ _ _ _ endless => exact absurd endless ended
    | done told _ _ rest =>
      refine moves.gone (fun order accepted named => (fresh order (takes order accepted) named).2 told) ⟨?_,by simp⟩
      exact fun owned found => (rest owned found).1
  have live (owned : OwnedOrder) (found : t.run.ownership.get? id = some owned)
      (endless : endings id (past ++ t.payloads) = []) : owned.state = .Active := by
    rw [endings_append,List.append_eq_nil_iff] at endless
    by_contra ended
    obtain ⟨before,there,finished⟩ := stepped.retired sane found ended endless.2
    exact finished (settled.live before there endless.1)
  refine ⟨?_,fun ended payload member => ((gone ended).2 payload member).1⟩
  obtain ⟨market,market_by_listing,rfl⟩ := stepped.commits
  obtain ⟨F,_,inv,_⟩ := stepped.ended
  refine ⟨?_,fun owned found => live owned (RunState.committed_get? found),?_⟩
  · -- The commit may drop the record of an order that has ended.
    cases course with
    | unseen absent silent untraded endless =>
      refine .unseen ?_ silent untraded endless
      by_contra there
      obtain ⟨owned,found⟩ := Option.ne_none_iff_exists'.mp there
      rw [RunState.committed_get? found] at absent
      cases absent
    | live found _ told account endless =>
      have active := live _ found endless
      exact .live (inv.committed_live _ _ _ found active) (.inl active) told account endless
    | done told ended ends rest => exact .done told ended ends fun owned found => rest owned (RunState.committed_get? found)
  · rw [endings_append,List.length_append]
    by_cases ended : endings id past = []
    · have distinct := inv.records.retirement.distinct
      rw [ended,endings_length id t.payloads]
      have := List.nodup_iff_count_le_one.mp (List.nodup_append.mp distinct).2.1 id
      simpa using this
    · have none : endings id t.payloads = [] :=
        List.filter_eq_nil_iff.mpr fun payload member => by simpa using ((gone ended).2 payload member).2
      rw [none]
      exact settled.once

/-- The events of a step are numbered on from those before. -/
theorem Stepped.numbered :
    applied.events.map EventEnvelope.sequence = List.range' (s.event_sequence + 1) applied.events.length ∧
      s'.event_sequence = s.event_sequence + applied.events.length := by
  obtain ⟨mode,moves,_⟩ := stepped.moves
  have sequence : t.run.event_sequence = s.event_sequence := moves.keeps_window.2
  have length : applied.events.length = t.payloads.length := by rw [← stepped.payloads,List.length_map]
  obtain ⟨_,_,_,_,_,same⟩ := stepped.leaves
  refine ⟨?_,?_⟩
  · rw [stepped.sequences,sequence,length]
  · rw [same,length]
    simp only [sequence]

end Step

/-! ### Whole runs -/

def Applied.payloads (applied : Applied) : List EventPayload := applied.events.map EventEnvelope.payload

def events_of (history : List (Input × Applied)) : List EventEnvelope := history.flatMap (fun step => step.2.events)

def payloads_of (history : List (Input × Applied)) : List EventPayload := history.flatMap (fun step => step.2.payloads)

def submissions (history : List (Input × Applied)) : List SubmitOrder := history.filterMap (fun step => step.1.submission)

section Run
variable {scenario : ScenarioDefinition} {start s : RunState} {history : List (Input × Applied)} {id : OrderId} {quantity : Int}

theorem Runs.numbered (runs : Runs start history s) (sane : Sane start) (fresh : start.event_sequence = 0) :
    (events_of history).map EventEnvelope.sequence = List.range' 1 (events_of history).length ∧
      s.event_sequence = (events_of history).length := by
  induction runs with
  | nil => exact ⟨rfl,fresh⟩
  | @step history s s' input applied before ran ih =>
    obtain ⟨t,stepped⟩ := Input.stepped (before.sane sane) ran
    obtain ⟨numbers,next⟩ := stepped.numbered
    have events : events_of (history ++ [(input,applied)]) = events_of history ++ applied.events := by simp [events_of]
    rw [events,List.map_append,List.length_append,ih.1,numbers,next,ih.2]
    refine ⟨?_,rfl⟩
    rw [Nat.add_comm,List.range'_append_1]

theorem Runs.accepts (runs : Runs start history s) (sane : Sane start) {step : Input × Applied} (member : step ∈ history)
    (told : .OrderAccepted id ∈ step.2.payloads) : ∃ order, step.1.submission = some order ∧ order.order_id = id := by
  induction runs with
  | nil => cases member
  | @step history s s' input applied before ran ih =>
    rcases List.mem_append.mp member with old | new
    · exact ih old
    · rw [List.mem_singleton.mp new] at told ⊢
      obtain ⟨t,stepped⟩ := Input.stepped (before.sane sane) ran
      exact stepped.accepts (stepped.payloads ▸ told)

theorem accepted_submissions {steps : List (Input × Applied)} (told : .OrderAccepted id ∈ payloads_of steps)
    (submits : ∀ step ∈ steps, .OrderAccepted id ∈ step.2.payloads →
      ∃ order, step.1.submission = some order ∧ order.order_id = id) : id ∈ (submissions steps).map SubmitOrder.order_id := by
  obtain ⟨step,member,here⟩ := List.mem_flatMap.mp told
  obtain ⟨order,placed,named⟩ := submits step member here
  exact List.mem_map.mpr ⟨order,List.mem_filterMap.mpr ⟨step,member,placed⟩,named⟩

theorem Runs.settled (runs : Runs start history s) (sane : Sane start) (empty : start.ownership = ∅)
    (distinct : ((submissions history).map SubmitOrder.order_id).Nodup)
    (named : ∀ order ∈ submissions history, order.order_id = id → order.quantity = quantity) :
    Settled id quantity (payloads_of history) (s.ownership.get? id) ∧
      ∀ before ended after, history = before ++ ended :: after → endings id ended.2.payloads ≠ [] →
        ∀ payload ∈ payloads_of after, payload.trades id = false := by
  induction runs with
  | nil =>
    refine ⟨⟨.unseen (by rw [empty]; rfl) (by simp [payloads_of]) rfl rfl,fun owned found => ?_,by simp [payloads_of,endings]⟩,
      fun before ended after none => ?_⟩
    · rw [empty] at found; cases found
    · simp at none
  | @step history s s' input applied before ran ih =>
    obtain ⟨t,stepped⟩ := Input.stepped (before.sane sane) ran
    have orders : submissions (history ++ [(input,applied)]) = submissions history ++ input.submission.toList := by
      simp only [submissions,List.filterMap_append]
      cases placed : input.submission <;> simp [placed]
    have payloads : payloads_of (history ++ [(input,applied)]) = payloads_of history ++ t.payloads := by
      simp only [payloads_of,List.flatMap_append,List.flatMap_singleton,Applied.payloads,stepped.payloads]
    rw [orders] at distinct named
    rw [List.map_append] at distinct
    obtain ⟨earlier,_,apart⟩ := List.nodup_append.mp distinct
    obtain ⟨settled,quiet⟩ := ih earlier fun order member => named order (List.mem_append_left _ member)
    have fresh (order : SubmitOrder) (placed : input.submission = some order) (here : order.order_id = id) :
        order.quantity = quantity ∧ .OrderAccepted id ∉ payloads_of history := by
      rw [placed] at named apart
      refine ⟨named order (by simp) here,fun told => ?_⟩
      have again := accepted_submissions told fun step member inside => before.accepts sane member inside
      exact apart id again id (by simp [here]) rfl
    obtain ⟨next,silent⟩ := stepped.settled (before.sane sane) settled fresh
    rw [payloads]
    refine ⟨next,fun first ended after same ends payload member => ?_⟩
    -- The step that ended the order is the last one, or one before it.
    rcases List.eq_nil_or_concat after with rfl | ⟨middle,last,rfl⟩
    · cases member
    · rw [List.concat_eq_append,← List.cons_append,← List.append_assoc] at same
      obtain ⟨earlier,final⟩ := List.append_inj' same rfl
      cases final
      have finished : endings id (payloads_of history) ≠ [] := by
        rw [earlier]
        simp only [payloads_of,List.flatMap_append,List.flatMap_cons,endings_append]
        simp [ends]
      rw [List.concat_eq_append] at member
      simp only [payloads_of,List.flatMap_append,List.flatMap_singleton,Applied.payloads,stepped.payloads] at member
      rcases List.mem_append.mp member with old | new
      · exact quiet first ended middle earlier ends payload old
      · exact silent finished payload new

/-- Over a whole run with distinct orders: the events are numbered without a gap; an accepted order is live and what
    traded and what remains of it make up its quantity, or it ended once, complete or canceled with what remained; and
    no step after the one that ended it trades it. -/
theorem orders_run_their_course (starts : Starts scenario start) (runs : Runs start history s)
    (distinct : ((submissions history).map SubmitOrder.order_id).Nodup) :
    (events_of history).map EventEnvelope.sequence = List.range' 1 (events_of history).length ∧
    ∀ step ∈ history, ∀ id, .OrderAccepted id ∈ step.2.payloads →
      ∃ order, step.1.submission = some order ∧ order.order_id = id ∧
        ((∃ owned, s.ownership.get? id = some owned ∧ owned.state = .Active ∧
            order.quantity = traded id (payloads_of history) + owned.remaining_quantity ∧
            endings id (payloads_of history) = []) ∨
          ((∀ owned, s.ownership.get? id = some owned → owned.state ≠ .Active) ∧
            ∃ ending, endings id (payloads_of history) = [ending] ∧
              Ends order.quantity (traded id (payloads_of history)) ending)) ∧
        ∀ before ended after, history = before ++ ended :: after → endings id ended.2.payloads ≠ [] →
          ∀ payload ∈ payloads_of after, payload.trades id = false := by
  have opened := starts.opened
  have sane := opened.sane
  refine ⟨(runs.numbered sane opened.fresh.2.2.2.2.2.2.1).1,fun step member id told => ?_⟩
  obtain ⟨order,placed,rfl⟩ := runs.accepts sane member told
  have inside : order ∈ submissions history := List.mem_filterMap.mpr ⟨step,member,placed⟩
  have named (other : SubmitOrder) (there : other ∈ submissions history) (same : other.order_id = order.order_id) :
      other.quantity = order.quantity := by rw [List.inj_on_of_nodup_map distinct there inside same]
  obtain ⟨⟨course,live,once⟩,quiet⟩ := runs.settled sane opened.fresh.1 distinct named
  refine ⟨order,placed,rfl,?_,quiet⟩
  have accepted : .OrderAccepted order.order_id ∈ payloads_of history := List.mem_flatMap.mpr ⟨step,member,told⟩
  cases course with
  | unseen _ silent _ _ => exact absurd accepted silent
  | live found _ _ account endless => exact .inl ⟨_,found,live _ found endless,account.symm,endless⟩
  | done _ ended ends rest =>
    obtain ⟨ending,alone⟩ := List.length_eq_one_iff.mp (Nat.le_antisymm once (List.length_pos_iff.mpr ended))
    exact .inr ⟨fun owned found => (rest owned found).1,ending,alone,ends ending (by rw [alone]; simp)⟩

theorem orders_run_their_course_filled : ∃ start history s, Starts sample start ∧ Runs start history s ∧
    (events_of history).map EventEnvelope.sequence = List.range' 1 8 ∧
    ∃ (order : SubmitOrder) (ending : EventPayload), order.order_id = 8 ∧
      endings 8 (payloads_of history) = [ending] ∧ Ends order.quantity 4 ending := by
  obtain ⟨start,history,s,starts,runs,distinct,length,⟨step,member,told⟩,ended,amount⟩ := @play_reaches sample sample_codec
    [place 0 1 7 1 .Buy 10 (.Limit 5),place 1 2 8 2 .Sell 4 (.Limit 5)]
    (fun history _ => ((submissions history).map SubmitOrder.order_id).Nodup ∧ (events_of history).length = 8 ∧
      (∃ step ∈ history, .OrderAccepted 8 ∈ step.2.payloads) ∧ endings 8 (payloads_of history) ≠ [] ∧
      traded 8 (payloads_of history) = 4) (by decide +kernel)
  obtain ⟨numbers,orders⟩ := orders_run_their_course starts runs distinct
  rw [length] at numbers
  obtain ⟨order,_,named,⟨_,_,_,_,endless⟩ | ⟨_,ending,alone,ends⟩,_⟩ := orders step member 8 told
  · exact absurd endless ended
  · rw [amount] at ends
    exact ⟨start,history,s,starts,runs,numbers,order,ending,named,alone,ends⟩

end Run

end Bunting
