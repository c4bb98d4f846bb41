import Bunting.Footprint

/-!
What a venue displays of its listings, and which listings are read again after
a step. The public view of a commit is made from the events of the step alone,
so a listing whose display changed must be one that the events point to.
-/

namespace Bunting
open Stateful

/-- Displayed bid and ask levels of one listing, best first. -/
def RunState.visible_levels (run : RunState) (key : ListingKey) : Except EngineError (List (Int × Int) × List (Int × Int)) := do
  let listing ← orElse (run.listings.get? key) EngineError.UnknownListing
  pure (listing.book.depth .Buy,listing.book.depth .Sell)

structure DisplayedOrder where
  order_id : OrderId
  reference : Nat
  side : Side
  price : Int
  quantity : Int
  broker : Option ParticipantId
  deriving DecidableEq

/-- The broker identifier a venue publishes for one order: its owner, if the
    venue publishes them and the order is not anonymous. -/
def order_broker (state : RunState) (listing_key : ListingKey) (order_id : OrderId) : Option ParticipantId :=
  if (state.listings.get? listing_key).any (fun listing => listing.definition.broker_ids) then
    ((state.ownership.get? order_id).filter (fun owned => !owned.anonymous)).map OwnedOrder.participant_id
  else none

/-- Every displayed order of one listing: bids then asks, each in matching priority. -/
def displayed_orders (state : RunState) (listing_key : ListingKey) : Except EngineError (List DisplayedOrder) := do
  let listing ← orElse (state.listings.get? listing_key) EngineError.UnknownListing
  pure ((([Side.Buy,Side.Sell].flatMap listing.book.resting).filter (fun order => order.visible > 0)).map (fun order =>
    ⟨order.order_id,order.priority,order.side,order.price,order.visible,order_broker state listing_key order.order_id⟩))

/-! ### The listings a batch of events points to -/

/-- The listings named so far, and whether every listing is read again. -/
def touch_event (seen : OrdSet ListingKey × Bool) (event : EventEnvelope) : OrdSet ListingKey × Bool :=
  match event.payload with
  | .OrderRested _ _ _ listing_key .. | .OrderCanceled _ _ _ listing_key .. | .TradeExecuted _ listing_key .. =>
    match listing_key with
    | some key => (seen.1.insert key (),seen.2)
    | none => (seen.1,true)
  | .Simulation _ => (seen.1,true)
  | _ => seen

/-- The listings that the public view of a batch reads again, of those it knows. -/
def touched (known : OrdSet ListingKey) (events : List EventEnvelope) : OrdSet ListingKey :=
  let seen := events.foldl touch_event (∅,false)
  if seen.2 then known.keys.foldl (fun touched key => touched.insert key ()) seen.1 else seen.1

section Touched
variable {key : ListingKey} {seen : OrdSet ListingKey × Bool} {event : EventEnvelope} {events : List EventEnvelope}

/-- The listing is read again for what was seen so far. -/
def Seen (key : ListingKey) (seen : OrdSet ListingKey × Bool) : Prop := seen.1.contains key = true ∨ seen.2 = true

theorem Seen.touch_event (before : Seen key seen) (event : EventEnvelope) :
    Seen key (touch_event seen event) := by
  have named (listing_key : Option ListingKey) : Seen key (match listing_key with
      | some key => (seen.1.insert key (),seen.2)
      | none => (seen.1,true)) := by
    cases listing_key with
    | none => exact .inr rfl
    | some other => exact before.imp (OrdMap.contains_insert.mpr <| .inl ·) id
  unfold Bunting.touch_event
  split
  · exact named _
  · exact named _
  · exact named _
  · exact .inr rfl
  · exact before

theorem seen_of_shows (shows : event.payload.shows key = true) :
    Seen key (touch_event seen event) := by
  have inserted (keys : OrdSet ListingKey) : (keys.insert key ()).contains key = true := by simp [OrdMap.contains]
  unfold touch_event
  generalize event.payload = payload at shows ⊢
  unfold EventPayload.shows at shows
  split at shows
  · cases of_decide_eq_true shows
    exact .inl (inserted _)
  · cases of_decide_eq_true shows
    exact .inl (inserted _)
  · cases of_decide_eq_true shows
    exact .inl (inserted _)
  · exact .inr rfl
  · cases shows

theorem seen_of_mem (member : event ∈ events)
    (shows : event.payload.shows key = true) (seen : OrdSet ListingKey × Bool) : Seen key (events.foldl touch_event seen) := by
  obtain ⟨before,after,rfl⟩ := List.append_of_mem member
  rw [List.foldl_append,List.foldl_cons]
  exact List.foldlRecOn (motive := Seen key) after touch_event (seen_of_shows shows) fun _ later event _ => later.touch_event event

theorem touched_of_shows (member : event ∈ events)
    (shows : event.payload.shows key = true) {known : OrdSet ListingKey} (there : known.contains key = true) :
    (touched known events).contains key = true := by
  have seen := seen_of_mem member shows (∅,false)
  simp only [touched]
  split_ifs with everything
  · obtain ⟨before,after,split⟩ := List.append_of_mem (OrdMap.mem_keys.mpr (OrdMap.contains_iff.mp there))
    rw [split,List.foldl_append,List.foldl_cons]
    exact List.foldlRecOn (motive := fun keys : OrdSet ListingKey => keys.contains key = true) after _ (by simp [OrdMap.contains])
      fun _ later _ _ => OrdMap.contains_insert.mpr (.inl later)
  · exact seen.resolve_right everything

end Touched

section Steps
variable {scenario : ScenarioDefinition} {input : Input} {s s' : RunState} {applied : Applied} {caught t : Transition}
  {key : ListingKey} {id : OrderId} {order : BookOrder}

theorem Input.opens_run (input : Input) (s : RunState) : (input.opens s).run = s := by
  cases input <;> rfl

theorem Stepped.listings (stepped : Stepped s input applied s' t) : s'.listings = t.run.listings := by
  obtain ⟨_,_,_,_,_,rfl⟩ := stepped.leaves
  rfl

theorem Stepped.get? {owned : OwnedOrder} (stepped : Stepped s input applied s' t)
    (found : s'.ownership.get? id = some owned) : t.run.ownership.get? id = some owned := by
  obtain ⟨market,market_by_listing,rfl⟩ := stepped.commits
  exact RunState.committed_get? found

section
variable (print : Footprint input s applied s' caught t)
include print

theorem Footprint.books (out : applied.changed_listings.contains key = false) : s'.book key = s.book key := by
  rw [print.changed] at out
  have before : caught.changed.contains key = false := by
    by_contra there
    rw [print.performed.changed key ((Bool.not_eq_false _).mp there)] at out
    cases out
  calc s'.book key = t.run.book key := by rw [RunState.book,print.stepped.listings]; rfl
    _ = caught.run.book key := print.performed.books key out
    _ = (input.opens s).run.book key := print.due.books key before
    _ = s.book key := by rw [input.opens_run]

theorem Footprint.shown (changed : s'.book key ≠ s.book key) :
    ∃ event ∈ applied.events, event.payload.shows key = true := by
  have told : ∃ payload ∈ t.payloads, payload.shows key = true := by
    rcases print.performed.shown key (by simp) with later | told
    · rcases print.due.shown key (by simp) with earlier | ⟨payload,member,shows⟩
      · refine absurd ?_ changed
        rw [input.opens_run] at earlier
        rw [RunState.book,print.stepped.listings]
        exact later.trans earlier
      · exact ⟨payload,print.performed.payloads.subset member,shows⟩
    · exact told
  obtain ⟨payload,member,shows⟩ := told
  rw [← print.stepped.payloads] at member
  obtain ⟨event,inside,rfl⟩ := List.mem_map.mp member
  exact ⟨event,inside,shows⟩

theorem Footprint.becomes {id : OrderId} {before after : OwnedOrder} (first : s.ownership.get? id = some before)
    (last : s'.ownership.get? id = some after) : before.Becomes after := by
  have known : caught.run.ownership.get? id ≠ none := fun none => by
    have := print.due.recorded id none
    rw [input.opens_run,first] at this
    cases this
  rcases print.performed.records id after (print.stepped.get? last) with ⟨middle,there,later⟩ | ⟨none,_⟩
  · rcases print.due.records id middle there with ⟨start,there,earlier⟩ | ⟨none,_⟩
    · rw [input.opens_run,first] at there
      cases there
      exact earlier.trans later
    · rw [input.opens_run,first] at none
      cases none
  · exact absurd none known

end

theorem Sane.owns (sane : Sane s) (there : (s.book key).orders.get? id = some order) :
    ∃ owned, s.ownership.get? id = some owned ∧ owned.state = .Active ∧ order.order_id = id := by
  have view : (s.book key).view.get? id = some ⟨order.side,order.price,order.remaining⟩ := by
    rw [Book.get?_view,there]
    rfl
  obtain ⟨owned,found,live,_⟩ := (sane.inv 0).records.orders.owns view
  exact ⟨owned,found,live,(((sane.inv 0).books key).order there).order_id⟩

/-- A listing with the same definition and the same book displays the same orders of the same brokers. -/
theorem Footprint.broker (print : Footprint input s applied s' caught t) (sane : Sane s)
    (same : s'.book key = s.book key) (there : (s.book key).orders.get? id = some order) :
    order_broker s' key order.order_id = order_broker s key order.order_id := by
  obtain ⟨before,first,_,rfl⟩ := sane.owns there
  obtain ⟨after,last,_,_⟩ := print.stepped.sane.owns (same ▸ there)
  have becomes := print.becomes first last
  have publishes : (s'.listings.get? key).any (fun listing => listing.definition.broker_ids) =
      (s.listings.get? key).any (fun listing => listing.definition.broker_ids) := by
    have same := congrArg (fun setup : Setup => (setup.definitions.get? key).any ListingDefinition.broker_ids)
      print.stepped.setup
    simpa only [RunState.setup,OrdMap.get?_mapValues,Option.any_map] using same
  simp only [order_broker,publishes,first,last,Option.filter_some,becomes.anonymous]
  split_ifs <;> simp [becomes.participant_id]

theorem Footprint.displays (print : Footprint input s applied s' caught t) (sane : Sane s)
    (same : s'.book key = s.book key) :
    s'.visible_levels key = s.visible_levels key ∧ displayed_orders s' key = displayed_orders s key := by
  have definitions := congrArg (fun setup : Setup => setup.definitions.get? key) print.stepped.setup
  simp only [RunState.setup,OrdMap.get?_mapValues] at definitions
  cases last : s'.listings.get? key with
  | none =>
    have first : s.listings.get? key = none := by simpa [last] using definitions.symm
    simp [RunState.visible_levels,displayed_orders,first,last]
  | some listing' =>
    cases first : s.listings.get? key with
    | none => simp [first,last] at definitions
    | some listing =>
      have books : listing'.book = listing.book := by
        rw [← RunState.book_of_listing last,← RunState.book_of_listing first]
        exact same
      refine ⟨by simp [RunState.visible_levels,first,last,books],?_⟩
      rw [displayed_orders,displayed_orders,first,last]
      refine congrArg Except.ok ?_
      rw [books]
      refine List.map_congr_left fun order member => ?_
      obtain ⟨side,_,rests⟩ := List.mem_flatMap.mp (List.mem_filter.mp member).1
      obtain ⟨id,_,there⟩ := List.mem_filterMap.mp rests
      rw [← RunState.book_of_listing first] at there
      rw [print.broker sane same there]

/-- A step changes the books of the listings it reports as changed and no
    other. Where the displayed depth or the displayed orders of a listing
    changed, an event names it or is one after which every listing is read
    again. -/
theorem steps_keep_to_their_listings (reachable : Reachable scenario s) (ran : input.step.run s = .ok applied s') :
    (∀ key, applied.changed_listings.contains key = false →
      (s'.listings.get? key).map ListingState.book = (s.listings.get? key).map ListingState.book) ∧
    ∀ key, s'.visible_levels key ≠ s.visible_levels key ∨ displayed_orders s' key ≠ displayed_orders s key →
      (∃ event ∈ applied.events, event.payload.shows key = true) ∧
      ∀ known : OrdSet ListingKey, known.contains key = true → (touched known applied.events).contains key = true := by
  have sane := reachable.sane
  obtain ⟨caught,t,print⟩ := Input.footprint sane ran
  refine ⟨fun key out => ?_,fun key changed => ?_⟩
  · have books := print.books out
    have definitions := congrArg (fun setup : Setup => setup.definitions.get? key) print.stepped.setup
    simp only [RunState.setup,OrdMap.get?_mapValues] at definitions
    cases last : s'.listings.get? key <;> cases first : s.listings.get? key <;> simp [first,last] at definitions ⊢
    rw [RunState.book_of_listing last,RunState.book_of_listing first] at books
    exact books
  · have moved : s'.book key ≠ s.book key := fun same => by
      obtain ⟨levels,orders⟩ := print.displays sane same
      exact changed.elim (absurd levels) (absurd orders)
    obtain ⟨event,member,shows⟩ := print.shown moved
    exact ⟨⟨event,member,shows⟩,fun known there => touched_of_shows member shows there⟩

/-- An order that rests in an empty book is displayed, its listing is reported and its event names it. -/
theorem steps_keep_to_their_listings_at_a_rest :
    ∃ s applied s', Reachable sample s ∧ (place 0 0 1 1 .Buy 5 (.Limit 10)).step.run s = .ok applied s' ∧
      applied.changed_listings.contains ⟨1,1⟩ = true ∧ s'.visible_levels ⟨1,1⟩ = .ok ([(10,5)],[]) ∧
      (touched (OrdMap.ofList [(⟨1,1⟩,())]) applied.events).contains ⟨1,1⟩ = true := by
  obtain ⟨s,applied,s',reachable,ran,marked,levels⟩ := @play_steps sample sample_codec []
    (place 0 0 1 1 .Buy 5 (.Limit 10)) (fun s applied s' => applied.changed_listings.contains ⟨1,1⟩ = true ∧
      decide (s'.visible_levels ⟨1,1⟩ = .ok ([(10,5)],[]) ∧ s.visible_levels ⟨1,1⟩ = .ok ([],[])) = true) (by decide +kernel)
  obtain ⟨later,before⟩ := of_decide_eq_true levels
  have changed : s'.visible_levels ⟨1,1⟩ ≠ s.visible_levels ⟨1,1⟩ := by
    rw [later,before]
    decide
  exact ⟨s,applied,s',reachable,ran,marked,later,
    ((steps_keep_to_their_listings reachable ran).2 ⟨1,1⟩ (.inl changed)).2 _ (by decide)⟩

end Steps

end Bunting
