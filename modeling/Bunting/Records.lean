import Bunting.Accounts

/-!
The records of a run as one whole. Each lemma is one thing that happens to an
order: it takes off, is executed in flight or at rest, lands, is canceled, is
retired.
-/

namespace Bunting

structure Records (setup : Setup) (views : Views) (flight : Option OrderId) (pending : List OrderId)
    (ownership : OrdMap OrderId OwnedOrder) (expiries : OrdSet (Nat ×ₗ OrderId)) (retired : List OrderId)
    (live_orders : OrdMap ParticipantId Nat) : Prop where
  orders : Orders views flight ownership expiries
  admitted : ∀ {id owned}, ownership.get? id = some owned → owned.state = .Active → Admitted setup owned
  /-- Only an order in flight may have a limit that no trade can be at. -/
  priced : ∀ {id owned}, ownership.get? id = some owned → owned.state = .Active → flight ≠ some id →
    setup.OnGrid owned.listing_key owned.limit_price
  retirement : Retirement pending flight ownership retired live_orders

def Views.set (views : Views) (key : ListingKey) (id : OrderId) (order : Option Book.Resting) : Views :=
  Function.update views key ((views key).set id order)

def expiries_after (owned : OwnedOrder) (quantity : Int) (id : OrderId) (expiries : OrdSet (Nat ×ₗ OrderId)) :
    OrdSet (Nat ×ₗ OrderId) :=
  if owned.remaining_quantity = quantity then drop_expiry owned.expires_at id expiries else expiries

def ended_by (owned : OwnedOrder) (quantity : Int) (id : OrderId) : List OrderId :=
  if owned.remaining_quantity = quantity then [id] else []

section Reduced
variable {owned : OwnedOrder} {quantity : Int}

theorem OwnedOrder.reduced_active (live : owned.state = .Active) (quantity : Int) :
    (owned.reduced quantity).state = .Active ↔ owned.remaining_quantity ≠ quantity := by
  unfold OwnedOrder.reduced
  by_cases spent : owned.remaining_quantity - quantity = 0
  · simp only [spent,if_true,reduceCtorEq,false_iff]; omega
  · simp only [spent,if_false,live,true_iff]; omega

theorem OwnedOrder.reduced_resting (live : owned.state = .Active) :
    (if (owned.reduced quantity).state = .Active then some (owned.reduced quantity).resting else none) =
      owned.resting.taken quantity := by
  simp only [OwnedOrder.reduced_active live quantity,Book.Resting.taken,OwnedOrder.resting]
  by_cases spent : owned.remaining_quantity = quantity <;> simp [spent,OwnedOrder.reduced]

end Reduced

namespace Records
variable {setup : Setup} {views : Views} {flight : Option OrderId} {pending : List OrderId}
  {ownership : OrdMap OrderId OwnedOrder} {expiries : OrdSet (Nat ×ₗ OrderId)} {retired : List OrderId}
  {live_orders : OrdMap ParticipantId Nat} {id : OrderId} {owned next : OwnedOrder} {quantity : Int}

section
variable (records : Records setup views flight pending ownership expiries retired live_orders)
include records

/-- What a live order holds is not negative, where the order in flight, if it buys, can trade at all. -/
theorem fair (valid : setup.Valid)
    (flying : ∀ id owned, flight = some id → ownership.get? id = some owned → owned.side = .Buy → 0 < owned.limit_price) :
    Fair ownership := by
  intro j other there live
  refine ⟨(records.orders.positive there live).le,?_⟩
  obtain ⟨D,T,_,known,_,_,reserves⟩ := records.admitted there live
  have multiplier := valid.multiplier known
  have := D.fees.bound_nonneg
  rw [reserves,Setup.reservation]
  cases side : other.side with
  | Buy =>
    have price : 0 < other.limit_price := by
      by_cases flies : flight = some j
      · exact flying j other flies there side
      · exact (records.priced there live flies).positive
    have := mul_pos price multiplier
    simp only
    split_ifs <;> simp only [Reservation.NONE] <;> omega
  | Sell => simp only; split_ifs <;> simp [Reservation.NONE]

/-- The facts about one record that its replacement keeps. -/
private theorem replaced (next : OwnedOrder) (found : ownership.get? id = some owned) (live : owned.state = .Active)
    (kept : Admitted setup owned → Admitted setup next)
    (price : next.listing_key = owned.listing_key ∧ next.limit_price = owned.limit_price) :
    (∀ {j other}, (ownership.insert id next).get? j = some other → other.state = .Active → Admitted setup other) ∧
    (∀ {j other}, (ownership.insert id next).get? j = some other → other.state = .Active → flight ≠ some j →
      setup.OnGrid other.listing_key other.limit_price) := by
  refine ⟨fun there => ?_,fun there => ?_⟩
  · exact OrdMap.of_insert there (fun _ => kept (records.admitted found live)) fun _ _ => records.admitted
  · refine OrdMap.of_insert there (fun _ grounded => ?_) fun _ _ => records.priced
    rw [price.1,price.2]
    exact records.priced found live grounded

theorem reduce (found : ownership.get? id = some owned) (live : owned.state = .Active) (grounded : flight ≠ some id)
    (enough : quantity ≤ owned.remaining_quantity) :
    Records setup (views.set owned.listing_key id (owned.resting.taken quantity)) flight
      (pending ++ ended_by owned quantity id) (ownership.insert id (owned.reduced quantity))
      (expiries_after owned quantity id expiries) retired live_orders := by
  have active := OwnedOrder.reduced_active live quantity
  have moved := records.orders.replace (owned.reduced quantity) found live grounded ⟨rfl,rfl,rfl⟩
    (fun still => by have := active.mp still; simp only [OwnedOrder.reduced]; omega)
  rw [OwnedOrder.reduced_resting live] at moved
  obtain ⟨admitted,priced⟩ := records.replaced (owned.reduced quantity) found live (fun admitted => admitted) ⟨rfl,rfl⟩
  refine ⟨?_,admitted,priced,?_⟩
  · unfold expiries_after
    by_cases spent : owned.remaining_quantity = quantity
    · rw [if_neg (by rw [active]; exact not_not.mpr spent)] at moved
      rw [if_pos spent]; exact moved
    · rw [if_pos (active.mpr spent)] at moved
      rw [if_neg spent]; exact moved
  · unfold ended_by
    split_ifs with spent
    · exact records.retirement.finish found live grounded (by rw [Ne,active]; exact not_not.mpr spent) rfl
    · rw [List.append_nil]
      exact records.retirement.keep found live (active.mpr spent) rfl

end

theorem reduce_flying (records : Records setup views (some id) pending ownership expiries retired live_orders)
    (found : ownership.get? id = some owned) (live : owned.state = .Active)
    (enough : quantity ≤ owned.remaining_quantity) :
    Records setup views (some id) pending (ownership.insert id (owned.reduced quantity)) expiries retired live_orders := by
  have active := OwnedOrder.reduced_active live quantity
  obtain ⟨admitted,priced⟩ := records.replaced (owned.reduced quantity) found live (fun admitted => admitted) ⟨rfl,rfl⟩
  have named : owned.order_id = id := records.orders.keyed found
  refine ⟨records.orders.fly named fun still => ?_,admitted,priced,
    records.retirement.fly found live rfl⟩
  have := active.mp still
  simp only [OwnedOrder.reduced]
  omega

theorem cancel (records : Records setup views flight pending ownership expiries retired live_orders)
    (found : ownership.get? id = some owned) (live : owned.state = .Active) (grounded : flight ≠ some id) :
    Records setup (views.set owned.listing_key id none) flight (pending ++ [id]) (ownership.insert id owned.canceled)
      (drop_expiry owned.expires_at id expiries) retired live_orders := by
  obtain ⟨admitted,priced⟩ := records.replaced owned.canceled found live (fun admitted => admitted) ⟨rfl,rfl⟩
  exact ⟨records.orders.replace owned.canceled found live grounded ⟨rfl,rfl,rfl⟩ (fun still => (nomatch still)),admitted,priced,
    records.retirement.finish found live grounded (by simp [OwnedOrder.canceled]) rfl⟩

theorem take_off (records : Records setup views none pending ownership expiries retired live_orders)
    (absent : ownership.get? id = none) (live : owned.state = .Active) (named : owned.order_id = id)
    (positive : 0 < owned.remaining_quantity) (admitted : Admitted setup owned)
    (room : ownership.size - retired.length < MAX_LIVE_ORDERS) :
    Records setup views (some id) pending (ownership.insert id owned) expiries retired
      (live_orders.insert owned.participant_id ((live_orders.get? owned.participant_id).getD 0 + 1)) := by
  refine ⟨records.orders.take_off absent named positive,fun there => ?_,fun there => ?_,
    records.retirement.take_off absent live room⟩
  · exact OrdMap.of_insert there (fun _ => admitted) fun _ _ => records.admitted
  · exact OrdMap.of_insert there (fun _ grounded => absurd rfl grounded) fun _ _ there active _ =>
      records.priced there active (by simp)

section
variable (records : Records setup views (some id) pending ownership expiries retired live_orders)
include records

theorem land (found : ownership.get? id = some owned) (live : owned.state = .Active)
    (price : setup.OnGrid owned.listing_key owned.limit_price) :
    Records setup (views.set owned.listing_key id (some owned.resting)) none pending ownership
      (add_expiry owned.expires_at id expiries) retired live_orders := by
  refine ⟨records.orders.land found live,records.admitted,fun {j other} there active _ => ?_,
    records.retirement.land found live⟩
  by_cases here : j = id
  · subst here
    cases found.symm.trans there
    exact price
  · exact records.priced there active fun flies => here (Option.some.inj flies).symm

theorem crash (found : ownership.get? id = some owned) (ended : owned.state ≠ .Active) :
    Records setup views none (pending ++ [id]) ownership expiries retired live_orders := by
  refine ⟨records.orders.crash found ended,records.admitted,fun {j other} there active _ => ?_,
    records.retirement.crash found ended⟩
  refine records.priced there active fun flies => ended ?_
  cases Option.some.inj flies
  cases found.symm.trans there
  exact active

theorem abandon (found : ownership.get? id = some owned) (live : owned.state = .Active) :
    Records setup views none (pending ++ [id]) (ownership.insert id owned.canceled) expiries retired live_orders := by
  obtain ⟨admitted,priced⟩ := records.replaced owned.canceled found live (fun admitted => admitted) ⟨rfl,rfl⟩
  have named : owned.order_id = id := records.orders.keyed found
  have flown : Records setup views (some id) pending (ownership.insert id owned.canceled) expiries retired live_orders :=
    ⟨records.orders.fly named fun still => (nomatch still),admitted,priced,records.retirement.fly found live rfl⟩
  exact flown.crash (OrdMap.get?_insert_self _ _ _) (by simp [OwnedOrder.canceled])

end

theorem retire {run : RunState}
    (records : Records setup views none (id :: pending) run.ownership run.expiries run.retired run.live_orders) :
    Records setup views none pending (retire id run).ownership run.expiries (retire id run).retired
      (retire id run).live_orders := by
  have kept {j : OrderId} {other : OwnedOrder} (there : (Bunting.retire id run).ownership.get? j = some other) :
      run.ownership.get? j = some other := by
    rw [retire_ownership,OrdMap.get?_foldl_erase] at there
    split_ifs at there
    exact there
  refine ⟨?_,fun there => records.admitted (kept there),fun there => records.priced (kept there),
    records.retirement.retire⟩
  rw [retire_ownership]
  exact records.orders.prune records.retirement.outgoing_ended

end Records

end Bunting
