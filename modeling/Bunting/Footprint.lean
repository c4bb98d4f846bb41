import Bunting.Crossings

/-!
The footprint of a transition: which books it changes, what it tells of them,
and whose orders it makes live. A book changes only once its listing is marked
as changed, and never without an event that names the listing or makes every
listing be read again.
-/

namespace Bunting
open Stateful

/-- An event that tells a reader of the events to look at a listing again. -/
def EventPayload.shows (key : ListingKey) : EventPayload → Bool
  | .OrderRested _ _ _ listing_key .. | .OrderCanceled _ _ _ listing_key .. | .TradeExecuted _ listing_key .. =>
    listing_key = some key
  | .Simulation _ => true
  | _ => false

/-- What stays of a record for as long as it is kept. -/
structure OwnedOrder.Becomes (before after : OwnedOrder) : Prop where
  order_id : after.order_id = before.order_id
  participant_id : after.participant_id = before.participant_id
  listing_key : after.listing_key = before.listing_key
  anonymous : after.anonymous = before.anonymous
  live : after.state = .Active → before.state = .Active

/-- No record is dropped and none is new. -/
structure Follows (before after : OrdMap OrderId OwnedOrder) : Prop where
  becomes : ∀ id owned, after.get? id = some owned → ∃ first, before.get? id = some first ∧ first.Becomes owned
  recorded : ∀ id, after.get? id = none → before.get? id = none

section Records
variable {ownership : OrdMap OrderId OwnedOrder} {id : OrderId} {owned next : OwnedOrder}

theorem OwnedOrder.Becomes.refl (owned : OwnedOrder) : owned.Becomes owned := ⟨rfl,rfl,rfl,rfl,id⟩

theorem OwnedOrder.Becomes.trans {a b c : OwnedOrder} (first : a.Becomes b) (second : b.Becomes c) : a.Becomes c :=
  ⟨second.order_id.trans first.order_id,second.participant_id.trans first.participant_id,
    second.listing_key.trans first.listing_key,second.anonymous.trans first.anonymous,first.live ∘ second.live⟩

theorem OwnedOrder.canceled_becomes (owned : OwnedOrder) : owned.Becomes owned.canceled :=
  ⟨rfl,rfl,rfl,rfl,fun active => (nomatch active)⟩

theorem OwnedOrder.reduced_becomes (owned : OwnedOrder) (quantity : Int) : owned.Becomes (owned.reduced quantity) := by
  refine ⟨rfl,rfl,rfl,rfl,fun active => ?_⟩
  simp only [OwnedOrder.reduced] at active
  split_ifs at active
  exact active

theorem Follows.refl (ownership : OrdMap OrderId OwnedOrder) : Follows ownership ownership :=
  ⟨fun _ owned found => ⟨owned,found,.refl owned⟩,fun _ none => none⟩

theorem Follows.replace (found : ownership.get? id = some owned) (becomes : owned.Becomes next) :
    Follows ownership (ownership.insert id next) := by
  refine ⟨fun j other there => ?_,fun j none => ?_⟩
  · exact OrdMap.of_insert there ⟨owned,found,becomes⟩ fun _ other there => ⟨other,there,.refl other⟩
  · rw [OrdMap.get?_insert] at none
    split_ifs at none
    exact none

end Records

/-- What a transition has done since another. One book may have changed that no event has told of yet. -/
structure Traced (kill : OrdSet ParticipantId) (untold : Option ListingKey) (t u : Transition) : Prop where
  switched : u.run.kill_switched = kill
  payloads : t.payloads <+: u.payloads
  changed : ∀ key, t.changed.contains key = true → u.changed.contains key = true
  books : ∀ key, u.changed.contains key = false → u.run.book key = t.run.book key
  shown : ∀ key, untold ≠ some key → u.run.book key = t.run.book key ∨ ∃ payload ∈ u.payloads, payload.shows key = true
  definitions : u.run.setup.definitions = t.run.setup.definitions
  keyed : ∀ id owned, u.run.ownership.get? id = some owned → owned.order_id = id
  records : ∀ id owned, u.run.ownership.get? id = some owned →
    (∃ before, t.run.ownership.get? id = some before ∧ before.Becomes owned) ∨
    (t.run.ownership.get? id = none ∧ kill.contains owned.participant_id = false)
  recorded : ∀ id, u.run.ownership.get? id = none → t.run.ownership.get? id = none

/-- Every record is of a listing that its id allows. -/
def Filed (allowed : OrderId → ListingKey → Prop) (t : Transition) : Prop :=
  ∀ id owned, t.run.ownership.get? id = some owned → allowed id owned.listing_key

theorem Filed.follows {allowed : OrderId → ListingKey → Prop} {t u : Transition} (filed : Filed allowed t)
    (follows : Follows t.run.ownership u.run.ownership) : Filed allowed u := by
  intro id owned found
  obtain ⟨before,there,becomes⟩ := follows.becomes id owned found
  rw [becomes.listing_key]
  exact filed id before there

section Steps
variable {kill : OrdSet ParticipantId} {untold : Option ListingKey} {t u v : Transition} {key : ListingKey} {id : OrderId}

theorem Traced.refl (keyed : ∀ id owned, t.run.ownership.get? id = some owned → owned.order_id = id) :
    Traced t.run.kill_switched none t t :=
  ⟨rfl,List.prefix_rfl,fun _ there => there,fun _ _ => rfl,fun _ _ => .inl rfl,rfl,keyed,
    fun _ owned found => .inl ⟨owned,found,.refl owned⟩,fun _ none => none⟩

/-- A book may be taken for one that no event has told of. -/
theorem Traced.weaken (traced : Traced kill none t u) (untold : Option ListingKey) : Traced kill untold t u :=
  { traced with shown := fun key _ => traced.shown key (by simp) }

section
variable (traced : Traced kill untold t u)
include traced

/-- The books stay and the records follow. -/
theorem Traced.follow (switched : v.run.kill_switched = u.run.kill_switched)
    (payloads : u.payloads <+: v.payloads) (changed : v.changed = u.changed) (listings : v.run.listings = u.run.listings)
    (follows : Follows u.run.ownership v.run.ownership) : Traced kill untold t v := by
  have same (key : ListingKey) : v.run.book key = u.run.book key := by rw [RunState.book,listings]; rfl
  refine ⟨switched.trans traced.switched,traced.payloads.trans payloads,fun key there => ?_,fun key out => ?_,
    fun key told => ?_,?_,fun id owned found => ?_,fun id owned found => ?_,
    fun id none => traced.recorded id (follows.recorded id none)⟩
  · rw [changed]
    exact traced.changed key there
  · rw [changed] at out
    rw [same]
    exact traced.books key out
  · rw [same]
    rcases traced.shown key told with unchanged | ⟨payload,member,shows⟩
    · exact .inl unchanged
    · exact .inr ⟨payload,payloads.subset member,shows⟩
  · rw [← traced.definitions]
    simp only [RunState.setup,listings]
  · obtain ⟨before,there,becomes⟩ := follows.becomes id owned found
    exact becomes.order_id.trans (traced.keyed id before there)
  · obtain ⟨middle,there,becomes⟩ := follows.becomes id owned found
    rcases traced.records id middle there with ⟨before,there,earlier⟩ | ⟨none,allowed⟩
    · exact .inl ⟨before,there,earlier.trans becomes⟩
    · exact .inr ⟨none,by rw [becomes.participant_id]; exact allowed⟩

theorem Traced.same (switched : v.run.kill_switched = u.run.kill_switched)
    (payloads : u.payloads <+: v.payloads) (changed : v.changed = u.changed) (listings : v.run.listings = u.run.listings)
    (ownership : v.run.ownership = u.run.ownership) : Traced kill untold t v :=
  traced.follow switched payloads changed listings (ownership ▸ .refl _)

theorem Traced.emit (payloads : List EventPayload) :
    Traced kill untold t { u with payloads := u.payloads ++ payloads } :=
  traced.same rfl (List.prefix_append _ _) rfl rfl rfl

/-- An event tells of the book that had changed. -/
theorem Traced.tell {payload : EventPayload} (member : payload ∈ u.payloads)
    (shows : ∀ key ∈ untold, payload.shows key = true) : Traced kill none t u := by
  refine { traced with shown := fun key _ => ?_ }
  by_cases here : untold = some key
  · exact .inr ⟨payload,member,shows key here⟩
  · exact traced.shown key here

theorem Traced.touch (key : ListingKey) :
    Traced kill untold t { u with changed := u.changed.insert key () } := by
  have grows (j : ListingKey) (there : u.changed.contains j = true) : (u.changed.insert key ()).contains j = true :=
    OrdMap.contains_insert.mpr (.inl there)
  refine { traced with changed := fun j there => grows j (traced.changed j there), books := fun j out => traced.books j ?_ }
  by_contra there
  rw [grows j (by simpa using there)] at out
  cases out

end

theorem Traced.put_book {listing : ListingState} {book : Book} (traced : Traced kill none t u)
    (known : u.run.listings.get? key = some listing) (marked : u.changed.contains key = true) :
    Traced kill (some key) t (u.put_book key book) := by
  refine { traced with books := fun j out => ?_, shown := fun j told => ?_, definitions := ?_ }
  · have other : j ≠ key := by
      rintro rfl
      have out : u.changed.contains j = false := out
      rw [marked] at out
      cases out
    rw [RunState.book,Transition.put_book,book_put_book known,if_neg other]
    exact traced.books j out
  · have other : j ≠ key := fun same => told (by rw [same])
    rw [RunState.book,Transition.put_book,book_put_book known,if_neg other]
    exact traced.shown j (by simp)
  · exact definitions_put_book.trans traced.definitions

/-- A participant that has not switched itself off has a new order. -/
theorem Traced.accept {owned : OwnedOrder} {ledger : Ledger} {live_orders : OrdMap ParticipantId Nat}
    (traced : Traced kill untold t u) (fresh : u.run.ownership.get? id = none) (named : owned.order_id = id)
    (allowed : kill.contains owned.participant_id = false) :
    Traced kill untold t
      { u with run := { u.run with ledger, live_orders, ownership := u.run.ownership.insert id owned } } := by
  refine { traced with
    keyed := fun _ _ found => OrdMap.of_insert found named traced.keyed
    records := fun _ _ found => OrdMap.of_insert found (.inr ⟨traced.recorded id fresh,allowed⟩) traced.records
    recorded := fun j none => ?_ }
  rw [OrdMap.get?_insert] at none
  split_ifs at none
  exact traced.recorded j none

/-! ### Programs that leave the books alone -/

/-- A program keeps what a transition has done since another. -/
abbrev Tracing {α : Type} (kill : OrdSet ParticipantId) (untold : Option ListingKey) (t : Transition) (m : Engine α) : Prop :=
  Meets (Traced kill untold t) m (fun _ => Traced kill untold t) AnyError

theorem posting_traced {α : Type} {fault : LedgerError → Fault} {m : EStateM LedgerError Ledger α} :
    Tracing kill untold t (posting fault m) := by
  refine Meets.of_ok fun u a v traced ran => ?_
  obtain ⟨ledger,_,rfl⟩ := zoom_eq_ok.mp ran
  exact traced.same rfl List.prefix_rfl rfl rfl rfl

theorem on_simulation_traced {α : Type} {m : Simulating α} : Tracing kill untold t (on_simulation m) := by
  refine Meets.of_ok fun u a v traced ran => ?_
  obtain ⟨world,_,rfl⟩ := zoom_eq_ok.mp ran
  exact traced.same rfl List.prefix_rfl rfl rfl rfl

theorem emit_traced {payloads : List EventPayload} : Tracing kill untold t (emit payloads) :=
  modify_meets fun _ traced => traced.emit payloads

theorem settle_day_traced (day : Nat) : Tracing kill untold t (settle_day day) := by
  refine get_meets fun u traced => ?_
  refine ((forM_keeps fun _ _ => posting_traced).at_state traced).bind fun _ => get_meets fun u traced => ?_
  refine (posting_traced.at_state traced).bind fun scores => ?_
  exact (orElse_meets (fun _ _ _ holds => holds) fun _ _ => trivial).bind fun _ => pure_meets fun _ holds => holds

theorem RunState.close_listing_eq (state : RunState × List ClosingPrice) (key : ListingKey) :
    ∃ day_trades closes, (close_listing state key).1 = { state.1 with day_trades, closes } := by
  simp only [close_listing]
  split <;> exact ⟨_,_,rfl⟩

theorem RunState.close_day_eq (run : RunState) (venue : VenueId) :
    ∃ day_trades closes, (run.close_day venue).1 = { run with day_trades, closes } := by
  have all (keys : List ListingKey) (state : RunState × List ClosingPrice) :
      ∃ day_trades closes, (keys.foldl close_listing state).1 = { state.1 with day_trades, closes } := by
    induction keys generalizing state with
    | nil => exact ⟨_,_,rfl⟩
    | cons key rest ih =>
      obtain ⟨day_trades,closes,first⟩ := close_listing_eq state key
      obtain ⟨day_trades',closes',later⟩ := ih (close_listing state key)
      rw [List.foldl_cons,later,first]
      exact ⟨day_trades',closes',rfl⟩
  exact all _ (run,[])

theorem record_close_traced (venue : VenueId) (boundary : Boundary) :
    Tracing kill untold t (record_close venue boundary) := by
  refine ite_meets (fun _ => get_meets fun u traced => ?_) fun _ => pure_meets fun _ holds => holds
  obtain ⟨day_trades,closes,closed⟩ := u.run.close_day_eq venue
  have kept : Traced kill untold t { u with run := (u.run.close_day venue).1 } := by
    rw [closed]
    exact traced.same rfl List.prefix_rfl rfl rfl rfl
  have closes : Meets (fun v => u = v) (modify_run fun _ => (u.run.close_day venue).1) (fun _ => Traced kill untold t)
      AnyError := modify_meets fun _ same => same ▸ kept
  refine closes.bind fun _ => emit_traced.bind fun _ => get_meets fun v traced => ?_
  refine ite_meets (fun _ => ?_) fun _ => pure_meets fun _ same => same ▸ traced
  exact ((settle_day_traced _).bind fun _ => emit_traced).at_state traced

/-! ### Cancels -/

/-- The listing of a record is marked before its order is canceled. -/
def Marked (id : OrderId) (t : Transition) : Prop :=
  ∀ owned, t.run.ownership.get? id = some owned → t.run.setup.definitions.contains owned.listing_key = true →
    t.changed.contains owned.listing_key = true

theorem Traced.cancel {reason : CancelReason} {x : Unit} (traced : Traced kill none t u) (marked : Marked id u)
    (ran : (cancel id reason).run u = .ok x v) :
    Traced kill none t v ∧ v.changed = u.changed ∧ Follows u.run.ownership v.run.ownership := by
  obtain ⟨owned,listing,resting,book,ledger,found,live,known,_,_,rfl⟩ := cancel_run ran
  have follows : Follows u.run.ownership (u.run.ownership.insert id owned.canceled) := .replace found owned.canceled_becomes
  have listed : u.run.setup.definitions.contains owned.listing_key = true := by
    rw [OrdMap.contains,RunState.definition_of_listing known]
    rfl
  have moved : Traced kill (some owned.listing_key) t (u.put_book owned.listing_key book) :=
    traced.put_book known (marked owned found listed)
  have left : Traced kill (some owned.listing_key) t (u.canceled id owned reason book ledger) :=
    moved.follow rfl (List.prefix_append _ _) rfl rfl follows
  refine ⟨left.tell (List.mem_append_right _ List.mem_cons_self) fun key here => ?_,rfl,follows⟩
  cases here
  simp [EventPayload.shows]

theorem cancel_all_traced (reason : CancelReason) (orders : List (OrderId × ListingKey)) :
    Meets (fun u => Traced kill none t u ∧ Filed (fun id key => ∀ entry ∈ orders, entry.1 = id → entry.2 = key) u)
      (cancel_all reason orders) (fun _ => Traced kill none t) AnyError := by
  refine (forM_keeps ?_).post fun _ _ holds => holds.1
  rintro ⟨id,key⟩ member
  refine Meets.of_ok fun u _ v ⟨traced,filed⟩ ran => ?_
  simp only [returned,Bunting.touch] at ran
  have marked : Marked id { u with changed := u.changed.insert key () } := by
    intro owned found _
    have here : key = owned.listing_key := filed id owned found (id,key) member rfl
    simp [OrdMap.contains,here]
  obtain ⟨traced,_,follows⟩ := (traced.touch key).cancel marked ran
  exact ⟨traced,filed.follows follows⟩

theorem expire_loop_traced (now fuel : Nat) : Tracing kill none t (expire_loop now fuel) := by
  induction fuel with
  | zero => exact pure_meets fun _ holds => holds
  | succ fuel ih =>
    refine Meets.of_ok fun u _ v traced ran => ?_
    simp only [expire_loop,returned] at ran
    split at ran
    · cases ran
      exact traced
    · split_ifs at ran
      · cases ran
        exact traced
      · simp only [returned,Bunting.touch] at ran
        obtain ⟨owned,found,w,canceled,ran⟩ := ran
        refine ih.ok (Traced.cancel (traced.touch owned.listing_key) ?_ canceled).1 ran
        intro other there _
        have same := Option.some.inj (found.symm.trans there)
        simp [OrdMap.contains,same]

theorem expire_due_traced (now : Nat) : Tracing kill none t (expire_due now) :=
  get_meets fun _ traced => (expire_loop_traced now _).at_state traced

/-! ### Executions -/

theorem reduce_order_traced (id : OrderId) (quantity : Int) : Tracing kill untold t (reduce_order id quantity) := by
  refine Meets.of_ok fun u _ v traced ran => ?_
  obtain ⟨owned,found,_,_,rfl⟩ := reduce_order_run ran
  exact traced.follow rfl List.prefix_rfl rfl rfl (.replace found (owned.reduced_becomes quantity))

theorem modify_run_traced {f : RunState → RunState} (switched : ∀ run, (f run).kill_switched = run.kill_switched)
    (listings : ∀ run, (f run).listings = run.listings) (ownership : ∀ run, (f run).ownership = run.ownership) :
    Tracing kill untold t (modify_run f) :=
  modify_meets fun u traced => traced.same (switched u.run) List.prefix_rfl rfl (listings u.run) (ownership u.run)

theorem drop_filled_expiry_keeps (id : OrderId) (expires_at : Option Nat) (run : RunState) :
    ∃ expiries, drop_filled_expiry id expires_at run = { run with expiries } := by
  unfold drop_filled_expiry
  split
  · exact ⟨_,rfl⟩
  · split_ifs <;> exact ⟨_,rfl⟩

theorem record_fill_traced {maker_id taker_id : OrderId} {maker taker : OwnedOrder} {price quantity : Int} {auction : Bool}
    {trade : EventPayload} (shows : ∀ key ∈ untold, trade.shows key = true) :
    Meets (Traced kill untold t) (record_fill key maker_id taker_id maker taker price quantity auction trade)
      (fun _ => Traced kill none t) AnyError := by
  refine Meets.bind (modify_run_traced (fun _ => rfl) (fun _ => rfl) fun _ => rfl) fun _ => ?_
  refine (reduce_order_traced _ _).bind fun _ => emit_traced.bind fun _ => ?_
  refine (reduce_order_traced _ _).bind fun _ => emit_traced.bind fun _ => ?_
  have drops (run : RunState) : ∃ expiries, (if auction = true then
      drop_filled_expiry taker_id taker.expires_at (drop_filled_expiry maker_id maker.expires_at run)
      else drop_filled_expiry maker_id maker.expires_at run) = { run with expiries } := by
    obtain ⟨first,same⟩ := drop_filled_expiry_keeps maker_id maker.expires_at run
    rw [same]
    split_ifs
    · exact drop_filled_expiry_keeps taker_id taker.expires_at _
    · exact ⟨first,rfl⟩
  refine Meets.bind (modify_run_traced (fun run => ?_) (fun run => ?_) fun run => ?_) fun _ =>
    modify_meets fun u traced => (traced.emit [trade]).tell (List.mem_append_right _ List.mem_cons_self) shows
  all_goals
    obtain ⟨expiries,same⟩ := drops run
    simp only [same]

theorem settle_fill_traced {maker_id taker_id : OrderId} {price quantity : Int} {auction : Bool}
    (here : ∀ j ∈ untold, j = key) :
    Meets (Traced kill untold t) (settle_fill key maker_id taker_id price quantity auction)
      (fun _ => Traced kill none t) AnyError := by
  refine Meets.of_ok fun u _ v traced ran => ?_
  simp only [settle_fill,returned] at ran
  obtain ⟨listing,_,maker,_,taker,_,_,maker_fee,_,taker_fee,_,w,posted,ran⟩ := ran
  refine (record_fill_traced fun j member => ?_).ok (posting_traced.ok traced posted) ran
  simp [EventPayload.shows,here j member]

theorem settle_matches_traced (taker_id : OrderId) (key : ListingKey) (found : List Match) :
    Meets (Traced kill (if found = [] then none else some key) t) (settle_matches taker_id key found)
      (fun _ => Traced kill none t) AnyError := by
  cases found with
  | nil => exact pure_meets fun _ holds => holds
  | cons first rest =>
    rw [settle_matches,List.forM_cons,if_neg (List.cons_ne_nil _ _)]
    have settles (untold : Option ListingKey) (here : ∀ j ∈ untold, j = key) (fill : Match) :
        Meets (Traced kill untold t) (settle_fill key fill.maker taker_id fill.price fill.quantity false)
          (fun _ => Traced kill none t) AnyError := settle_fill_traced here
    exact (settles (some key) (fun j member => (Option.mem_some_iff.mp member).symm) first).bind fun _ =>
      forM_keeps fun fill _ => settles none (fun _ member => (nomatch member)) fill

theorem on_book_traced {α : Type} {fault : BookError → Fault} {m : EStateM BookError Book α} :
    Meets (fun u => Traced kill none t u ∧ u.changed.contains key = true) (on_book key fault m)
      (fun _ => Traced kill (some key) t) AnyError := by
  refine Meets.of_ok fun u _ v ⟨traced,marked⟩ ran => ?_
  obtain ⟨listing,book,known,_,rfl⟩ := on_book_ok ran
  exact traced.put_book known marked

theorem auction_traced (key : ListingKey) :
    Meets (fun u => Traced kill none t u ∧ u.changed.contains key = true) (auction key) (fun _ => Traced kill none t)
      AnyError := by
  refine get_meets fun u holds => Meets.bind (Q := fun _ v => Traced kill none t v ∧ v.changed.contains key = true)
    (orElse_meets (fun _ _ _ same => same ▸ holds) fun _ _ => trivial) fun listing => ?_
  split
  · exact pure_meets fun _ holds => holds.1
  · refine on_book_traced.bind fun crosses => Meets.bind (forM_keeps fun cross _ => ?_) fun _ =>
      modify_meets fun v traced => (traced.emit _).tell (List.mem_append_right _ List.mem_cons_self) fun _ _ => rfl
    have settles (maker_id taker_id : OrderId) (price : Int) :
        Tracing kill (some key) t (settle_fill key maker_id taker_id price cross.quantity true) :=
      (settle_fill_traced fun j member => (Option.mem_some_iff.mp member).symm).post fun _ _ traced => traced.weaken _
    exact ite_meets (fun _ => settles _ _ _) fun _ => settles _ _ _

/-! ### Session boundaries -/

/-- The listings of a venue that is known here have all been marked. -/
def VenueMarked (definitions : OrdMap ListingKey ListingDefinition) (venue : VenueId) (t : Transition) : Prop :=
  ∀ key, definitions.contains key = true → key.venue_id = venue → t.changed.contains key = true

theorem mem_venue_listings {run : RunState} {venue : VenueId} (listed : run.setup.definitions.contains key = true)
    (at_venue : key.venue_id = venue) : key ∈ run.venue_listings venue := by
  obtain ⟨D,found⟩ := OrdMap.contains_iff.mp listed
  obtain ⟨listing,known,_⟩ := RunState.listing_of_definition found
  exact List.mem_filter.mpr ⟨OrdMap.mem_keys.mpr ⟨listing,known⟩,by simpa using at_venue⟩

theorem uncross_venue_traced (venue : VenueId) (phase : SessionPhase) :
    Meets (Traced kill none t) (uncross_venue venue phase) (fun _ u => Traced kill none t u ∧
      (phase = .Closed → VenueMarked t.run.setup.definitions venue u)) AnyError := by
  refine ite_meets (fun _ => get_meets fun u traced => ?_) fun other =>
    pure_meets fun _ traced => ⟨traced,fun closed => absurd (Or.inr closed) other⟩
  -- A round marks the listing it auctions and unmarks none.
  refine (forM_meets (fun rest v => Traced kill none t v ∧ ∀ key, t.run.setup.definitions.contains key = true →
    key.venue_id = venue → key ∈ rest ∨ v.changed.contains key = true) (fun key rest => ?_)
    (u.run.venue_listings venue)).imp ?_ ?_ fun _ _ failed => failed
  · refine Meets.of_ok fun v _ w ⟨traced,left⟩ ran => ?_
    simp only [returned,Bunting.touch] at ran
    have marked : (v.changed.insert key ()).contains key = true := by simp [OrdMap.contains]
    have alone : Traced _ none _ w :=
      (auction_traced key).ok ⟨Traced.refl (t := { v with changed := v.changed.insert key () }) traced.keyed,marked⟩ ran
    refine ⟨(auction_traced key).ok ⟨traced.touch key,marked⟩ ran,fun j listed at_venue => ?_⟩
    rcases left j listed at_venue with member | there
    · rcases List.mem_cons.mp member with rfl | later
      · exact .inr (alone.changed j marked)
      · exact .inl later
    · exact .inr (alone.changed j (OrdMap.contains_insert.mpr (.inl there)))
  · rintro _ rfl
    refine ⟨traced,fun key listed at_venue => .inl (mem_venue_listings ?_ at_venue)⟩
    rw [traced.definitions]
    exact listed
  · rintro _ v ⟨traced,left⟩
    exact ⟨traced,fun _ key listed at_venue => (left key listed at_venue).resolve_left List.not_mem_nil⟩

theorem expire_day_orders_traced (venue : VenueId) (phase : SessionPhase) :
    Meets (fun u => Traced kill none t u ∧ (phase = .Closed → VenueMarked t.run.setup.definitions venue u))
      (expire_day_orders venue phase) (fun _ => Traced kill none t) AnyError := by
  refine ite_meets (fun closed => get_meets fun u ⟨traced,marked⟩ => ?_) fun _ => pure_meets fun _ holds => holds.1
  refine (forM_keeps (P := fun v => Traced kill none t v ∧ VenueMarked t.run.setup.definitions venue v ∧
    Filed (fun id key => id ∈ u.run.day_orders venue → key.venue_id = venue) v) fun id member => ?_).imp ?_
    (fun _ _ holds => holds.1) fun _ _ failed => failed
  · refine Meets.of_ok fun v _ w ⟨traced,marked,filed⟩ ran => ?_
    have here : Marked id v := by
      intro owned found listed
      rw [traced.definitions] at listed
      exact marked owned.listing_key listed (filed id owned found member)
    obtain ⟨traced,changed,follows⟩ := traced.cancel here ran
    refine ⟨traced,fun key listed at_venue => ?_,filed.follows follows⟩
    rw [changed]
    exact marked key listed at_venue
  · rintro _ rfl
    refine ⟨traced,marked closed,fun id owned found member => ?_⟩
    simp only [RunState.day_orders,List.mem_map,List.mem_filter,decide_eq_true_eq] at member
    obtain ⟨other,⟨inside,_,_,at_venue⟩,named⟩ := member
    obtain ⟨j,there⟩ := OrdMap.mem_values.mp inside
    rw [traced.keyed j other there] at named
    subst named
    cases found.symm.trans there
    exact at_venue

theorem cross_boundary_traced (venue : VenueId) (step : Nat) (boundary : Boundary) :
    Tracing kill none t (cross_boundary venue step boundary) := by
  refine (orElse_meets (fun _ _ _ holds => holds) fun _ _ => trivial).bind fun next => ?_
  refine Meets.bind (modify_run_traced (fun _ => rfl) (fun _ => rfl) fun _ => rfl) fun _ => ?_
  refine (uncross_venue_traced venue _).bind fun _ => (expire_day_orders_traced venue _).bind fun _ => ?_
  exact emit_traced.bind fun _ => record_close_traced venue boundary

theorem cross_boundaries_traced (time fuel : Nat) : Tracing kill none t (cross_boundaries time fuel) := by
  induction fuel with
  | zero => exact pure_meets fun _ holds => holds
  | succ fuel ih =>
    refine get_meets fun u traced => ?_
    split
    · exact pure_meets fun _ same => same ▸ traced
    · exact ((expire_due_traced _).bind fun _ => (cross_boundary_traced _ _ _).bind fun _ => ih).at_state traced

theorem catch_up_traced (time : Nat) (sweep : Bool) : Tracing kill none t (catch_up time sweep) := by
  refine on_simulation_traced.bind fun events => emit_traced.bind fun _ => get_meets fun u traced => ?_
  exact ((cross_boundaries_traced time _).bind fun _ => expire_due_traced time).at_state traced

/-! ### Commands -/

theorem Traced.trans (first : Traced kill none t u) (second : Traced kill untold u v) : Traced kill untold t v := by
  refine ⟨second.switched,first.payloads.trans second.payloads,fun key there => second.changed key (first.changed key there),
    fun key out => ?_,fun key told => ?_,second.definitions.trans first.definitions,second.keyed,fun id owned found => ?_,
    fun id none => first.recorded id (second.recorded id none)⟩
  · have before : u.changed.contains key = false := by
      by_contra there
      rw [second.changed key (by simpa using there)] at out
      cases out
    exact (second.books key out).trans (first.books key before)
  · rcases second.shown key told with later | told
    · rcases first.shown key (by simp) with earlier | ⟨payload,member,shows⟩
      · exact .inl (later.trans earlier)
      · exact .inr ⟨payload,second.payloads.subset member,shows⟩
    · exact .inr told
  · rcases second.records id owned found with ⟨middle,there,becomes⟩ | ⟨none,allowed⟩
    · rcases first.records id middle there with ⟨before,there,earlier⟩ | ⟨none,allowed⟩
      · exact .inl ⟨before,there,earlier.trans becomes⟩
      · exact .inr ⟨none,by rw [becomes.participant_id]; exact allowed⟩
    · exact .inr ⟨first.recorded id none,allowed⟩

section Submit
variable {order : SubmitOrder} {ticket : Ticket}

section
variable (marked : t.changed.contains key = true)
include marked

theorem execute_traced {side : Side} {limit : Option Int} {quantity : Int} :
    Meets (Traced kill none t) (on_book key Fault.booking (Book.execute side limit quantity))
      (fun found => Traced kill (if found.1 = [] then none else some key) t) AnyError := by
  refine Meets.of_ok fun u found v traced ran => ?_
  obtain ⟨listing,book,known,executed,rfl⟩ := on_book_ok ran
  have moved : Traced kill (some key) t (u.put_book key book) := traced.put_book known (traced.changed key marked)
  split_ifs with idle
  · -- Without a match the book is the one it was.
    obtain ⟨matches_,left⟩ := found
    cases idle
    cases Book.execute_idle executed
    refine { moved with shown := fun j _ => ?_ }
    have same : (u.put_book key listing.book).run.book j = u.run.book j := by
      rw [RunState.book,Transition.put_book,book_put_book known]
      split_ifs with here
      · rw [here,RunState.book_of_listing known]
      · rfl
    rw [same]
    exact traced.shown j (by simp)
  · exact moved

theorem match_order_traced : Tracing kill none t (match_order order key ticket) := by
  refine get_meets fun u traced => ite_meets (fun _ => ?_) fun _ => pure_meets fun _ same => same ▸ traced
  refine ((execute_traced marked).at_state traced).bind fun (found,remaining) => ?_
  exact (settle_matches_traced _ key found).bind fun _ => pure_meets fun _ holds => holds

theorem settle_remainder_traced (remaining : Int) :
    Tracing kill none t (settle_remainder order key ticket remaining) := by
  refine ite_meets (fun _ => emit_traced) fun _ => ?_
  split
  · rename_i price _ _
    refine Meets.of_ok fun u _ v traced ran => ?_
    obtain ⟨listing,book,known,_,rfl⟩ := rest_remainder_run ran
    have moved : Traced kill (some key) t (u.put_book key book) := traced.put_book known (traced.changed key marked)
    have told := moved.emit [.OrderRested order.order_id order.participant_id order.instrument_id (some key) order.side
      price remaining]
    have left : Traced kill (some key) t (u.rested order key ticket price remaining book) :=
      told.same rfl List.prefix_rfl rfl rfl rfl
    refine left.tell (List.mem_append_right _ List.mem_cons_self) fun j here => ?_
    cases here
    simp [EventPayload.shows]
  · refine posting_traced.bind fun _ => get_meets fun u traced => ?_
    refine Meets.of_ok fun _ _ v same ran => ?_
    subst same
    simp only [returned,modify_run,emit] at ran
    obtain ⟨owned,found,rfl⟩ := ran
    exact traced.follow rfl (List.prefix_append _ _) rfl rfl (.replace found owned.canceled_becomes)

theorem submit_traced (allowed : kill.contains order.participant_id = false) (now : Nat) :
    Tracing kill none t (submit order key now) := by
  refine get_meets fun u traced => Meets.bind (Q := fun listing v => u = v)
    (orElse_meets (fun _ _ _ same => same) fun _ _ => trivial) fun listing => ?_
  split
  · exact pure_meets fun _ same => same ▸ traced
  · rename_i ticket screened
    have accepts : Meets (fun v => u = v) (accept order key ticket) (fun _ => Traced kill none t) AnyError := by
      refine Meets.of_ok fun _ _ v same ran => ?_
      subst same
      obtain ⟨ledger,_,rfl⟩ := accept_run ran
      exact (traced.accept (screen_ok screened).fresh rfl allowed).emit _
    exact accepts.bind fun _ => (match_order_traced marked).bind fun remaining =>
      (settle_remainder_traced marked remaining).bind fun _ => pure_meets fun _ holds => holds

end

theorem submit_gated_traced (now : Nat) :
    Meets (Traced kill none t) (submit_gated order key now)
      (fun outcome u => Traced kill none t u ∧ (kill.contains order.participant_id = true → outcome ≠ .ok ())) AnyError := by
  have refused {code : RejectCode} {u : Transition} (traced : Traced kill none t u) :
      Meets (fun v => u = v) (pure (.error code) : Engine (Except RejectCode Unit))
        (fun outcome u => Traced kill none t u ∧ (kill.contains order.participant_id = true → outcome ≠ .ok ()))
        AnyError := pure_meets fun _ same => ⟨same ▸ traced,fun _ => by simp⟩
  refine get_meets fun u traced => ite_meets (fun _ => refused traced) fun _ => ite_meets (fun _ => refused traced) fun free =>
    ite_meets (fun _ => refused traced) fun _ => Meets.of_ok fun _ outcome v same ran => ?_
  subst same
  rw [traced.switched,Bool.not_eq_true] at free
  simp only [returned,Bunting.touch] at ran
  have touched := traced.touch key
  have own : Traced kill none _ v := (submit_traced (by simp [OrdMap.contains]) free now).ok
    (touched.switched ▸ Traced.refl touched.keyed) ran
  exact ⟨touched.trans own,fun off => absurd (free.symm.trans off) (by simp)⟩

end Submit

theorem submit_command_traced {order : SubmitOrder} (key : Option ListingKey) (now : Nat) :
    Meets (Traced kill none t) (submit_command order key now) (fun answer u => Traced kill none t u ∧
      (kill.contains order.participant_id = true → answer.accepted = false)) AnyError := by
  refine (orElse_meets (fun _ _ _ holds => holds) fun _ _ => trivial).bind fun key => emit_traced.bind fun _ => ?_
  refine (submit_gated_traced now).bind fun outcome => ?_
  cases outcome with
  | ok x => exact pure_meets fun _ ⟨traced,off⟩ => ⟨traced,fun there => absurd rfl (off there)⟩
  | error code =>
    exact Meets.bind (Q := fun _ => Traced kill none t) (modify_meets fun _ holds => holds.1.emit _) fun _ =>
      pure_meets fun _ traced => ⟨traced,fun _ => rfl⟩

theorem cancel_requested_traced (request : CancelOrder) : Tracing kill none t (cancel_requested request) := by
  refine get_meets fun u traced => ?_
  split
  · exact pure_meets fun _ same => same ▸ traced
  · rename_i owned found
    refine ite_meets (fun _ => pure_meets fun _ same => same ▸ traced) fun _ =>
      ite_meets (fun _ => pure_meets fun _ same => same ▸ traced) fun _ => Meets.of_ok fun _ _ v same ran => ?_
    subst same
    simp only [returned,Bunting.touch] at ran
    obtain ⟨w,canceled,_,rfl⟩ := ran
    refine ((traced.touch owned.listing_key).cancel ?_ canceled).1
    intro other there _
    cases found.symm.trans there
    simp [OrdMap.contains]

theorem answer_order_traced (order_id : OrderId) (outcome : Except RejectCode Unit) :
    Tracing kill none t (answer_order order_id outcome) := by
  cases outcome with
  | ok _ => exact pure_meets fun _ holds => holds
  | error code => exact emit_traced.bind fun _ => pure_meets fun _ holds => holds

/-- The entries of the live orders name the listings they are filed under. -/
theorem filed_live {p : OwnedOrder → Bool} {name : OrderId × OwnedOrder → OrderId}
    (named : ∀ entry ∈ u.run.live_where p, name entry = entry.1) :
    Filed (fun id key => ∀ entry ∈ (u.run.live_where p).map (fun entry => (name entry,entry.2.listing_key)),
      entry.1 = id → entry.2 = key) u := by
  rintro id owned found entry member rfl
  obtain ⟨⟨j,other⟩,inside,rfl⟩ := List.mem_map.mp member
  have there := OrdMap.get?_eq_some_iff.mpr (List.mem_filter.mp inside).1
  simp only [named _ inside] at found ⊢
  cases found.symm.trans there
  rfl

theorem mass_cancel_traced (participant : Option ParticipantId) (instrument : Option InstrumentId) :
    Tracing kill none t (mass_cancel participant instrument) := by
  refine get_meets fun u traced => ?_
  refine ((cancel_all_traced _ _).at_state ⟨traced,filed_live fun entry inside => ?_⟩).bind fun _ => emit_traced
  exact traced.keyed _ _ (OrdMap.get?_eq_some_iff.mpr (List.mem_filter.mp inside).1)

theorem perform_simulation_traced (request : SimulationCommandRequest) :
    Tracing kill none t (perform_simulation request) := by
  unfold perform_simulation
  split
  · exact mass_cancel_traced _ _
  · refine get_meets fun u traced => (on_simulation_traced.at_state traced).bind fun _ => emit_traced.bind fun _ => ?_
    exact get_meets fun u traced => (expire_due_traced _).at_state traced

/-! ### A whole step -/

def Transition.switch (t : Transition) (kill_switched : OrdSet ParticipantId) : Transition :=
  { t with run := { t.run with kill_switched } }

/-- The participants that are switched off after a command. -/
def Command.switches (command : Command) (kill : OrdSet ParticipantId) : OrdSet ParticipantId :=
  match command.payload with
  | .ActivateKillSwitch => kill.insert command.actor ()
  | .ResetKillSwitch => kill.erase command.actor
  | _ => kill

theorem perform_traced {command : Command} (key : Option ListingKey)
    (keyed : ∀ id owned, t.run.ownership.get? id = some owned → owned.order_id = id) :
    Meets (fun u => t = u) (perform command key) (fun answer u =>
      Traced (command.switches t.run.kill_switched) none (t.switch (command.switches t.run.kill_switched)) u ∧
      ∀ order, command.payload.order = some order → t.run.kill_switched.contains order.participant_id = true →
        answer.accepted = false) AnyError := by
  have start : Traced t.run.kill_switched none t t := .refl keyed
  unfold perform Command.switches
  cases command.payload with
  | SubmitOrder order | SubmitOrderAtListing _ order =>
    refine ((submit_command_traced key _).at_state start).post fun answer u holds => ⟨holds.1,fun other same => ?_⟩
    cases same
    exact holds.2
  | CancelOrder request =>
    refine ((cancel_requested_traced request).at_state start).bind fun outcome => ?_
    exact (answer_order_traced _ _).post fun _ _ holds => ⟨holds,fun _ none => (by cases none)⟩
  | ActivateKillSwitch =>
    have switched : Traced _ none (t.switch (t.run.kill_switched.insert command.actor ())) _ :=
      (Traced.refl (t := t.switch (t.run.kill_switched.insert command.actor ())) keyed).emit [.KillSwitchActivated]
    refine Meets.of_ok fun _ _ v same ran => ?_
    subst same
    simp only [activate_kill_switch,returned,modify_run,emit] at ran
    obtain ⟨w,ran,_,rfl⟩ := ran
    exact ⟨(cancel_all_traced _ _).ok ⟨switched,filed_live fun _ _ => rfl⟩ ran,fun _ none => (by cases none)⟩
  | ResetKillSwitch =>
    refine Meets.of_ok fun _ _ v same ran => ?_
    subst same
    simp only [reset_kill_switch,returned,modify_run,emit] at ran
    obtain ⟨_,rfl⟩ := ran
    exact ⟨(Traced.refl (t := t.switch (t.run.kill_switched.erase command.actor)) keyed).emit [.KillSwitchReset],
      fun _ none => (by cases none)⟩

end Steps

def Input.switches (kill : OrdSet ParticipantId) : Input → OrdSet ParticipantId
  | .Command command => command.switches kill
  | .Request _ => kill

/-- The footprint of one step: of what was due, and of what was asked. -/
structure Footprint (input : Input) (s : RunState) (applied : Applied) (s' : RunState) (caught t : Transition) : Prop where
  due : Traced s.kill_switched none (input.opens s) caught
  performed : Traced (input.switches s.kill_switched) none (caught.switch (input.switches s.kill_switched)) t
  stepped : Stepped s input applied s' t
  changed : applied.changed_listings = t.changed
  refused : ∀ order, input.submission = some order → s.kill_switched.contains order.participant_id = true →
    applied.accepted = false

theorem Sane.keyed {s : RunState} (sane : Sane s) {id : OrderId} {owned : OwnedOrder}
    (found : s.ownership.get? id = some owned) : owned.order_id = id :=
  (sane.inv 0).records.orders.keyed found

theorem Input.footprint {input : Input} {s s' : RunState} {applied : Applied} (sane : Sane s)
    (ran : input.step.run s = .ok applied s') : ∃ caught t, Footprint input s applied s' caught t := by
  have start (payloads : List EventPayload) : Traced s.kill_switched none { run := s, payloads } { run := s, payloads } :=
    Traced.refl (t := { run := s, payloads }) fun _ _ found => sane.keyed found
  cases input with
  | Command command =>
    obtain ⟨caught,t,applies⟩ := apply_ok ran
    obtain ⟨key,answer,_,performs,accepted,_⟩ := applies.performs
    have catches := (catch_up_traced _ _).ok (start []) applies.catches
    have performed := (perform_traced key catches.keyed).ok rfl performs
    rw [catches.switched] at performed
    obtain ⟨_,halves⟩ := applies.halves sane
    refine ⟨caught,t,catches,performed.1,halves.stepped,applies.changed,fun order submits off => ?_⟩
    rw [accepted]
    exact performed.2 order submits off
  | Request request =>
    obtain ⟨announced,caught,t,simulates⟩ := apply_simulation_ok ran
    have opened : announced = (Input.Request request).opens s := simulates.announces
    have catches := (catch_up_traced _ _).ok (start _) (opened ▸ simulates.catches)
    have performed : Traced caught.run.kill_switched none caught t :=
      (perform_simulation_traced request).ok (Traced.refl catches.keyed) simulates.performs
    obtain ⟨_,halves⟩ := simulates.halves sane
    refine ⟨caught,t,catches,?_,halves.stepped,simulates.changed,fun _ none => (by cases none)⟩
    show Traced s.kill_switched none (caught.switch s.kill_switched) t
    rw [← catches.switched]
    exact performed

end Bunting
