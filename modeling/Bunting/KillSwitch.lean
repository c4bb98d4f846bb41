import Bunting.Displays

/-!
The kill switch. Its activation cancels the live orders of one participant and
touches nobody else; until its reset no order of the participant is accepted,
so none is live and nothing is reserved for it.
-/

namespace Bunting
open Stateful

/-- From one run to another nothing of the other participants changed. A closed order may leave the records. -/
structure Untouched (participant : ParticipantId) (before after : RunState) : Prop where
  live : ∀ id owned, owned.participant_id ≠ participant → owned.state = .Active →
    (after.ownership.get? id = some owned ↔ before.ownership.get? id = some owned)
  closed : ∀ id owned, owned.participant_id ≠ participant → after.ownership.get? id = some owned →
    before.ownership.get? id = some owned
  cash : ∀ p c, p ≠ participant → after.ledger.cash_of p c = before.ledger.cash_of p c
  positions : ∀ p i, p ≠ participant → after.ledger.position_of p i = before.ledger.position_of p i
  resting : ∀ key id owned, before.ownership.get? id = some owned → owned.participant_id ≠ participant →
    owned.state = .Active → (after.book key).orders.get? id = (before.book key).orders.get? id

/-- A participant that switched itself off has no live order. -/
structure Off (participant : ParticipantId) (run : RunState) : Prop where
  switched : run.kill_switched.contains participant = true
  idle : ∀ id owned, run.ownership.get? id = some owned → owned.participant_id = participant → owned.state ≠ .Active

section Activation
variable {participant : ParticipantId} {a b c : RunState} {t u : Transition} {id : OrderId}

theorem Untouched.trans (first : Untouched participant a b) (second : Untouched participant b c) :
    Untouched participant a c where
  live id owned other live := (second.live id owned other live).trans (first.live id owned other live)
  closed id owned other found := first.closed id owned other (second.closed id owned other found)
  cash p c other := (second.cash p c other).trans (first.cash p c other)
  positions p i other := (second.positions p i other).trans (first.positions p i other)
  resting key id owned found other live :=
    (second.resting key id owned ((first.live id owned other live).mpr found) other live).trans
      (first.resting key id owned found other live)

theorem Ledger.close_order_others {owner p : ParticipantId} {instrument : InstrumentId} {side : Side} {quantity : Int}
    {reservation : Reservation} {ledger ledger' : Ledger}
    (ran : (Ledger.close_order owner instrument side quantity reservation).run ledger = .ok () ledger') (other : p ≠ owner) :
    (∀ c, ledger'.cash_of p c = ledger.cash_of p c) ∧ ∀ i, ledger'.position_of p i = ledger.position_of p i := by
  obtain ⟨terms,_,_,_,rfl⟩ := Ledger.change_open_ok ran
  refine ⟨fun c => ?_,fun i => ?_⟩
  · simp [Ledger.cash_of,Ledger.put,OrdMap.get?_insert,other]
  · simp [Ledger.position_of,Ledger.put,OrdMap.get?_insert,other]

theorem Book.cancel_orders {book book' : Book} {order : BookOrder} (canceled : Book.cancel id book = (some order,book')) :
    book'.orders = book.orders.erase id := by
  unfold Book.cancel at canceled
  split at canceled
  · cases canceled
  · split at canceled
    · rename_i removes
      cases canceled
      obtain ⟨_,removed⟩ := Book.remove_ok removes
      exact removed.orders
    · cases canceled

/-- A cancel of an order touches nobody but its owner. -/
theorem cancel_untouched {reason : CancelReason} {x : Unit} {owned : OwnedOrder}
    (found : t.run.ownership.get? id = some owned) (owner : owned.participant_id = participant)
    (ran : (cancel id reason).run t = .ok x u) :
    Untouched participant t.run u.run ∧ u.run.ownership = t.run.ownership.insert id owned.canceled := by
  obtain ⟨same,listing,resting,book,ledger,there,_,known,canceled,closes,rfl⟩ := cancel_run ran
  cases found.symm.trans there
  have mine (j : OrderId) (other : OwnedOrder) (foreign : other.participant_id ≠ participant) :
      (t.run.ownership.insert id owned.canceled).get? j = some other ↔ t.run.ownership.get? j = some other := by
    rw [OrdMap.get?_insert]
    split_ifs with here
    · subst here
      refine ⟨fun same => absurd ?_ foreign,fun same => absurd ?_ foreign⟩
      · cases same
        exact owner
      · cases found.symm.trans same
        exact owner
    · rfl
  have others {p : ParticipantId} (foreign : p ≠ participant) := Ledger.close_order_others closes (owner ▸ foreign)
  refine ⟨⟨fun j other foreign _ => mine j other foreign,fun j other foreign => (mine j other foreign).mp,
    fun p c foreign => (others foreign).1 c,fun p i foreign => (others foreign).2 i,fun key j other held foreign _ => ?_⟩,rfl⟩
  have apart : j ≠ id := by
    rintro rfl
    cases found.symm.trans held
    exact foreign owner
  have here : (t.canceled id owned reason book ledger).run.book key =
      if key = owned.listing_key then book else t.run.book key := book_put_book known key
  rw [here]
  split_ifs with same
  · rw [Book.cancel_orders canceled,OrdMap.get?_erase,if_neg apart,same,RunState.book_of_listing known]
  · rfl

/-- The orders still to cancel are the participant's and all its live orders are among them. -/
structure Clearing (participant : ParticipantId) (orders : List (OrderId × ListingKey)) (run : RunState) : Prop where
  owned : ∀ entry ∈ orders, ∃ owned, run.ownership.get? entry.1 = some owned ∧ owned.participant_id = participant
  all : ∀ id owned, run.ownership.get? id = some owned → owned.participant_id = participant → owned.state = .Active →
    id ∈ orders.map Prod.fst

theorem cancel_all_clears (reason : CancelReason) (orders : List (OrderId × ListingKey)) :
    Meets (fun u => Untouched participant a u.run ∧ Clearing participant orders u.run) (cancel_all reason orders)
      (fun _ u => Untouched participant a u.run ∧ Clearing participant [] u.run) AnyError := by
  refine forM_meets (fun orders (u : Transition) => Untouched participant a u.run ∧
    Clearing participant orders u.run) ?_ orders
  rintro ⟨id,key⟩ rest
  refine Meets.of_ok fun u _ v ⟨untouched,clearing⟩ ran => ?_
  simp only [returned,touch] at ran
  obtain ⟨owned,found,owner⟩ := clearing.owned (id,key) List.mem_cons_self
  obtain ⟨step,records⟩ := cancel_untouched (t := { u with changed := u.changed.insert key () }) found owner ran
  refine ⟨untouched.trans step,fun entry member => ?_,fun j other there mine live => ?_⟩
  · obtain ⟨other,there,mine⟩ := clearing.owned entry (List.mem_cons_of_mem _ member)
    rw [records,OrdMap.get?_insert]
    split_ifs
    · exact ⟨_,rfl,owner⟩
    · exact ⟨other,there,mine⟩
  · rw [records,OrdMap.get?_insert] at there
    split_ifs at there with same
    · cases there
      cases live
    · exact (List.mem_cons.mp (clearing.all j other there mine live)).resolve_left same

theorem live_orders_clear (run : RunState) :
    Clearing participant ((run.live_where (fun owned => owned.participant_id = participant)).map
      (fun entry => (entry.1,entry.2.listing_key))) run := by
  refine ⟨fun entry member => ?_,fun id owned found mine live => ?_⟩
  · obtain ⟨⟨id,owned⟩,inside,rfl⟩ := List.mem_map.mp member
    obtain ⟨there,holds⟩ := List.mem_filter.mp inside
    simp only [decide_eq_true_eq] at holds
    exact ⟨owned,OrdMap.get?_eq_some_iff.mpr there,holds.2⟩
  · rw [List.map_map]
    refine List.mem_map.mpr ⟨(id,owned),List.mem_filter.mpr ⟨OrdMap.mem_of_get? found,?_⟩,rfl⟩
    simp [live,mine]

theorem activate_kill_switch_clears {x : Unit} (ran : (activate_kill_switch participant).run t = .ok x u) :
    Untouched participant t.run u.run ∧
    ∀ id owned, u.run.ownership.get? id = some owned → owned.participant_id = participant → owned.state ≠ .Active := by
  simp only [activate_kill_switch,returned,modify_run,emit] at ran
  let marked : RunState := { t.run with kill_switched := t.run.kill_switched.insert participant () }
  have switched : Untouched participant t.run marked :=
    ⟨fun _ _ _ _ => Iff.rfl,fun _ _ _ found => found,fun _ _ _ => rfl,fun _ _ _ => rfl,fun _ _ _ _ _ _ => rfl⟩
  obtain ⟨untouched,cleared⟩ := (cancel_all_clears _ _).ok ⟨switched,live_orders_clear marked⟩ ran
  exact ⟨untouched,fun id owned found mine live => absurd (cleared.all id owned found mine live) List.not_mem_nil⟩

end Activation

section Runs
variable {scenario : ScenarioDefinition} {participant : ParticipantId} {start s s' : RunState} {input : Input}
  {applied : Applied} {caught t : Transition}

/-- A command by which a participant takes itself back into the market. -/
def Input.resets (participant : ParticipantId) : Input → Bool
  | .Command command => command.payload = .ResetKillSwitch ∧ command.actor = participant
  | .Request _ => false

theorem Input.switches_keeps {kill : OrdSet ParticipantId} (off : kill.contains participant = true)
    (kept : input.resets participant = false) : (input.switches kill).contains participant = true := by
  cases input with
  | Request request => exact off
  | Command command =>
    simp only [Input.resets,decide_eq_false_iff_not,not_and] at kept
    simp only [Input.switches,Command.switches]
    split
    · exact OrdMap.contains_insert.mpr (.inl off)
    · rename_i resets
      have other : participant ≠ command.actor := fun same => kept resets same.symm
      simpa only [OrdMap.contains,OrdMap.get?_erase,if_neg other] using off
    · exact off

theorem Stepped.kill_switched (stepped : Stepped s input applied s' t) : s'.kill_switched = t.run.kill_switched := by
  obtain ⟨_,_,_,_,_,rfl⟩ := stepped.leaves
  rfl

theorem Footprint.off (print : Footprint input s applied s' caught t) (off : Off participant s)
    (kept : input.resets participant = false) : Off participant s' := by
  have still := Input.switches_keeps off.switched kept
  refine ⟨by rw [print.stepped.kill_switched,print.performed.switched]; exact still,fun id owned found mine live => ?_⟩
  rcases print.performed.records id owned (print.stepped.get? found) with ⟨middle,there,later⟩ | ⟨_,allowed⟩
  · rcases print.due.records id middle there with ⟨before,there,earlier⟩ | ⟨_,allowed⟩
    · have becomes := earlier.trans later
      rw [input.opens_run] at there
      exact off.idle id before there (becomes.participant_id.symm.trans mine) (becomes.live live)
    · rw [← later.participant_id,mine,off.switched] at allowed
      cases allowed
  · rw [mine,still] at allowed
    cases allowed

theorem Off.runs {history : List (Input × Applied)} (off : Off participant start) (sane : Sane start)
    (runs : Runs start history s) (kept : ∀ entry ∈ history, entry.1.resets participant = false) :
    Off participant s ∧ ∀ entry ∈ history, ∀ order, entry.1.submission = some order → order.participant_id = participant →
      entry.2.accepted = false := by
  induction runs with
  | nil => exact ⟨off,fun _ none => (nomatch none)⟩
  | @step history s s' input applied before ran ih =>
    obtain ⟨off,refused⟩ := ih fun entry member => kept entry (List.mem_append_left _ member)
    obtain ⟨caught,t,print⟩ := Input.footprint (before.sane sane) ran
    refine ⟨print.off off (kept _ (List.mem_append_right _ List.mem_cons_self)),fun entry member order submits mine => ?_⟩
    rcases List.mem_append.mp member with early | here
    · exact refused entry early order submits mine
    · cases List.mem_singleton.mp here
      exact print.refused order submits (mine ▸ off.switched)

/-- What is reserved is reserved for live orders. -/
theorem Off.unreserved (off : Off participant s) (sane : Sane s) :
    (∀ c, (s.ledger.cash_of participant c).reserved = 0) ∧ ∀ i, (s.ledger.position_of participant i).reserved = 0 := by
  have reserved := (sane.inv 0).balanced.accounts.reserved
  have others (counter : Counter) (foreign : ∀ e : Entry, e.participant ≠ participant → counter.change e = 0) :
      counter.read s.ledger = 0 := by
    rw [reserved counter]
    refine OrdMap.sum_eq_zero fun id owned found => ?_
    unfold OwnedOrder.holds
    split_ifs with live
    · exact foreign _ fun mine => off.idle id owned found mine live
    · rfl
  refine ⟨fun c => others (.Cash participant c) fun e foreign => ?_,
    fun i => others (.Inventory participant i) fun e foreign => ?_⟩
  · exact if_neg fun same => foreign same.1.symm
  · exact if_neg fun same => foreign same.1.symm

/-- A commit drops closed records and nothing else that is anybody's. -/
theorem Stepped.untouched (stepped : Stepped s input applied s' t) : Untouched participant t.run s' := by
  obtain ⟨F,_,inv,_⟩ := stepped.ended
  obtain ⟨market,market_by_listing,rfl⟩ := stepped.commits
  refine ⟨fun id owned _ live => ⟨RunState.committed_get?,fun found => inv.committed_live _ _ _ found live⟩,
    fun id owned _ found => RunState.committed_get? found,?_,?_,?_⟩
  all_goals
    obtain ⟨ownership,retired,live_orders,same,_⟩ := RunState.committed_eq t (s.sequence + 1) market market_by_listing
    rw [same]
    intros
    rfl

theorem activation_step {command : Command} (sane : Sane s) (activates : command.payload = .ActivateKillSwitch)
    (ran : (Input.Command command).step.run s = .ok applied s') :
    Off command.actor s' ∧ ∃ caught, (catch_up command.logical_time false).run { run := s } = .ok () caught ∧
      Untouched command.actor caught.run s' := by
  obtain ⟨caught,t,applies⟩ := apply_ok ran
  obtain ⟨key,answer,_,performs,_⟩ := applies.performs
  rw [perform,activates] at performs
  simp only [returned] at performs
  obtain ⟨_,activated,_,rfl⟩ := performs
  obtain ⟨untouched,idle⟩ := activate_kill_switch_clears activated
  obtain ⟨_,halves⟩ := applies.halves sane
  have stepped := halves.stepped
  refine ⟨⟨?_,fun id owned found => idle id owned (stepped.get? found)⟩,caught,applies.catches,
    untouched.trans stepped.untouched⟩
  obtain ⟨_,_,print⟩ := Input.footprint sane ran
  rw [print.stepped.kill_switched,print.performed.switched]
  simp [Input.switches,Command.switches,activates,OrdMap.contains]

/-- From the activation of its kill switch to its own reset a participant has
    no live order, nothing reserved and no order accepted. The activation
    itself leaves everyone else as the items already due left them. -/
theorem kill_switch_holds {activation : Command} {answer : Applied} {before after : List (Input × Applied)}
    (starts : Starts scenario start) (runs : Runs start (before ++ (.Command activation,answer) :: after) s)
    (activates : activation.payload = .ActivateKillSwitch)
    (kept : ∀ entry ∈ after, entry.1.resets activation.actor = false) :
    (∀ id owned, s.ownership.get? id = some owned → owned.participant_id = activation.actor → owned.state ≠ .Active) ∧
    (∀ c, (s.ledger.cash_of activation.actor c).reserved = 0) ∧
    (∀ i, (s.ledger.position_of activation.actor i).reserved = 0) ∧
    (∀ entry ∈ after, ∀ order, entry.1.submission = some order → order.participant_id = activation.actor →
      entry.2.accepted = false) ∧
    ∃ s₀ caught s₁, Runs start before s₀ ∧ (Input.Command activation).step.run s₀ = .ok answer s₁ ∧ Runs s₁ after s ∧
      (catch_up activation.logical_time false).run { run := s₀ } = .ok () caught ∧
      Untouched activation.actor caught.run s₁ := by
  have sane : Sane start := starts.opened.sane
  obtain ⟨s₀,s₁,first,here,later⟩ := runs.split
  obtain ⟨off,caught,catches,untouched⟩ := activation_step (first.sane sane) activates here
  have sane₁ : Sane s₁ := (first.step here).sane sane
  obtain ⟨off,refused⟩ := off.runs sane₁ later kept
  obtain ⟨cash,inventory⟩ := off.unreserved (later.sane sane₁)
  exact ⟨off.idle,cash,inventory,refused,s₀,caught,s₁,first,here,later,catches,untouched⟩

/-- The second input switches the first participant off, and the third is an order of it. -/
def switches_off : List (Input × Applied) → Bool
  | [_,(.Command command,_),last] => decide (command = ⟨1,2,2,1,1,1,.ActivateKillSwitch⟩ ∧ last.1.resets 1 = false ∧
    last.1.submission.map SubmitOrder.participant_id = some 1)
  | _ => false

/-- A buyer with a resting order switches itself off and is refused when it submits again. -/
theorem kill_switch_holds_for_a_buyer : ∃ start first answer last s,
    Starts sample start ∧ Runs start ([first] ++ (.Command ⟨1,2,2,1,1,1,.ActivateKillSwitch⟩,answer) :: [last]) s ∧
    last.1.resets 1 = false ∧ last.2.accepted = false ∧ (s.ledger.cash_of 1 1).reserved = 0 := by
  obtain ⟨start,history,s,starts,runs,held⟩ := @play_reaches sample sample_codec
    [place 0 0 7 1 .Buy 5 (.Limit 10),.Command ⟨1,2,2,1,1,1,.ActivateKillSwitch⟩,place 2 2 8 1 .Buy 5 (.Limit 10)]
    (fun history _ => switches_off history = true) (by decide +kernel)
  unfold switches_off at held
  split at held
  · rename_i first command answer last
    obtain ⟨rfl,kept,submits⟩ := of_decide_eq_true held
    obtain ⟨order,placed,mine⟩ := Option.map_eq_some_iff.mp submits
    have played : Runs start ([first] ++ (.Command ⟨1,2,2,1,1,1,.ActivateKillSwitch⟩,answer) :: [last]) s := runs
    obtain ⟨_,cash,_,refused,_⟩ := kill_switch_holds starts played rfl fun entry member => by
      rw [List.mem_singleton.mp member]
      exact kept
    exact ⟨start,first,answer,last,s,starts,played,kept,refused last List.mem_cons_self order placed mine,cash 1⟩
  · cases held

end Runs

end Bunting
