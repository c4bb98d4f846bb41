import Bunting.Engine
import Bunting.Matching
import Bunting.Postings

/-!
The ownership records against the books, the expiries and the ledger. A record
rests exactly where a book holds its order (`Orders`). Within a transition this
is stated over a view of each book: while the executions of a sweep are being
settled, the view still holds what is not settled yet, and the arriving order is
in flight. What the live records hold of each account is a sum over them
(`held`).
-/

namespace Bunting

/-- What each book holds. -/
abbrev Views := ListingKey → OrdMap OrderId Book.Resting

/-- What a record says of its order in the book. -/
def OwnedOrder.resting (owned : OwnedOrder) : Book.Resting := ⟨owned.side,owned.limit_price,owned.remaining_quantity⟩

/-- What a book holds of an order according to its record. -/
def rested (ownership : OrdMap OrderId OwnedOrder) (flight : Option OrderId) (key : ListingKey) (id : OrderId) :
    Option Book.Resting :=
  (ownership.get? id).bind (fun owned =>
    if owned.state = .Active ∧ owned.listing_key = key ∧ flight ≠ some id then some owned.resting else none)

structure Orders (views : Views) (flight : Option OrderId) (ownership : OrdMap OrderId OwnedOrder)
    (expiries : OrdSet (Nat ×ₗ OrderId)) : Prop where
  keyed : ∀ {id owned}, ownership.get? id = some owned → owned.order_id = id
  agrees : ∀ key id, (views key).get? id = rested ownership flight key id
  positive : ∀ {id owned}, ownership.get? id = some owned → owned.state = .Active → 0 < owned.remaining_quantity
  expiring : ∀ time id, expiries.contains (toLex (time,id)) = true ↔
    ∃ owned, ownership.get? id = some owned ∧ owned.state = .Active ∧ owned.expires_at = some time ∧ flight ≠ some id

def drop_expiry (expires_at : Option Nat) (id : OrderId) (expiries : OrdSet (Nat ×ₗ OrderId)) :
    OrdSet (Nat ×ₗ OrderId) := expires_at.elim expiries (fun time => expiries.erase (toLex (time,id)))

def add_expiry (expires_at : Option Nat) (id : OrderId) (expiries : OrdSet (Nat ×ₗ OrderId)) :
    OrdSet (Nat ×ₗ OrderId) := expires_at.elim expiries (fun time => expiries.insert (toLex (time,id)) ())

section Expiries
variable {expiries : OrdSet (Nat ×ₗ OrderId)}

theorem expiry_eq_iff {at_ns time : Nat} {id j : OrderId} :
    (toLex (time,j) = toLex (at_ns,id)) ↔ j = id ∧ some at_ns = some time := by
  simp [and_comm,eq_comm]

theorem contains_drop_expiry (expires_at : Option Nat) (id : OrderId) (time : Nat) (j : OrderId) :
    (drop_expiry expires_at id expiries).contains (toLex (time,j)) = true ↔
      expiries.contains (toLex (time,j)) = true ∧ ¬ (j = id ∧ expires_at = some time) := by
  cases expires_at with
  | none => simp [drop_expiry]
  | some at_ns =>
    simp only [drop_expiry,Option.elim,OrdMap.contains,OrdMap.get?_erase,expiry_eq_iff]
    by_cases same : j = id ∧ some at_ns = some time
    · simp [same]
    · simp only [same,if_false]; simp

theorem contains_add_expiry (expires_at : Option Nat) (id : OrderId) (time : Nat) (j : OrderId) :
    (add_expiry expires_at id expiries).contains (toLex (time,j)) = true ↔
      expiries.contains (toLex (time,j)) = true ∨ (j = id ∧ expires_at = some time) := by
  cases expires_at with
  | none => simp [add_expiry]
  | some at_ns =>
    simp only [add_expiry,Option.elim,OrdMap.contains,OrdMap.get?_insert,expiry_eq_iff]
    by_cases same : j = id ∧ some at_ns = some time
    · simp [same]
    · simp only [same,if_false]; simp

end Expiries

section Moves
variable {views : Views} {flight : Option OrderId} {ownership : OrdMap OrderId OwnedOrder}
  {expiries : OrdSet (Nat ×ₗ OrderId)} {id : OrderId} {owned next : OwnedOrder}

theorem rested_of_ne {key : ListingKey} {j : OrderId} (other : j ≠ id) :
    rested (ownership.insert id next) flight key j = rested ownership flight key j := by
  simp only [rested,OrdMap.get?_insert_of_ne other]

section
variable (orders : Orders views flight ownership expiries)
include orders

theorem Orders.rests (found : ownership.get? id = some owned)
    (active : owned.state = .Active) (grounded : flight ≠ some id) :
    (views owned.listing_key).get? id = some owned.resting := by
  rw [orders.agrees,rested,found]
  simp [active,grounded]

theorem Orders.owns {key : ListingKey} {order : Book.Resting} (held : (views key).get? id = some order) :
    ∃ owned, ownership.get? id = some owned ∧ owned.state = .Active ∧ owned.listing_key = key ∧
      owned.resting = order ∧ flight ≠ some id := by
  rw [orders.agrees,rested] at held
  obtain ⟨owned,found,rest⟩ := Option.bind_eq_some_iff.mp held
  split_ifs at rest with live
  exact ⟨owned,found,live.1,live.2.1,Option.some.inj rest,live.2.2⟩

/-- Where a record no longer rests its expiry goes with it. -/
theorem Orders.replace (next : OwnedOrder)
    (found : ownership.get? id = some owned) (active : owned.state = .Active) (grounded : flight ≠ some id)
    (same : next.order_id = owned.order_id ∧ next.listing_key = owned.listing_key ∧ next.expires_at = owned.expires_at)
    (positive : next.state = .Active → 0 < next.remaining_quantity) :
    Orders (Function.update views owned.listing_key ((views owned.listing_key).set id
        (if next.state = .Active then some next.resting else none))) flight (ownership.insert id next)
      (if next.state = .Active then expiries else drop_expiry owned.expires_at id expiries) := by
  obtain ⟨key_eq,listing_eq,expiry_eq⟩ := same
  refine ⟨fun {j other} there => ?_,fun key j => ?_,fun {j other} there => ?_,fun time j => ?_⟩
  · exact OrdMap.of_insert there (key_eq.trans (orders.keyed found)) fun _ _ => orders.keyed
  · by_cases here : j = id
    · subst here
      by_cases at_key : key = owned.listing_key
      · subst at_key
        simp [rested,listing_eq,grounded]
      · rw [Function.update_of_ne at_key,orders.agrees,rested,rested,found,OrdMap.get?_insert_self]
        simp [listing_eq,Ne.symm at_key]
    · rw [rested_of_ne here,← orders.agrees]
      by_cases at_key : key = owned.listing_key
      · subst at_key
        rw [Function.update_self,OrdMap.get?_set_of_ne _ _ here]
      · rw [Function.update_of_ne at_key]
  · exact OrdMap.of_insert there positive fun _ _ => orders.positive
  · have others (ne : j ≠ id) : (∃ o, (ownership.insert id next).get? j = some o ∧ o.state = .Active ∧
        o.expires_at = some time ∧ flight ≠ some j) ↔ expiries.contains (toLex (time,j)) = true := by
      rw [orders.expiring,OrdMap.get?_insert_of_ne ne]
    have own : expiries.contains (toLex (time,id)) = true ↔ owned.expires_at = some time := by
      rw [orders.expiring,found]
      simp [active,grounded]
    by_cases here : j = id
    · subst here
      rw [OrdMap.get?_insert_self]
      by_cases live : next.state = .Active
      · rw [if_pos live,own]
        simp [live,expiry_eq,grounded]
      · rw [if_neg live,contains_drop_expiry,own]
        simp [live]
    · rw [others here]
      split_ifs
      · rfl
      · rw [contains_drop_expiry]
        simp [here]

end

/-- A new order takes off: it is live and rests nowhere. -/
theorem Orders.take_off (orders : Orders views none ownership expiries) (absent : ownership.get? id = none)
    (key_eq : owned.order_id = id) (positive : 0 < owned.remaining_quantity) :
    Orders views (some id) (ownership.insert id owned) expiries := by
  refine ⟨fun {j other} there => ?_,fun key j => ?_,fun {j other} there => ?_,fun time j => ?_⟩
  · exact OrdMap.of_insert there key_eq fun _ _ => orders.keyed
  · rw [orders.agrees]
    by_cases here : j = id
    · subst here
      simp [rested,absent]
    · rw [rested_of_ne here]
      simp [rested,Ne.symm here]
  · exact OrdMap.of_insert there (fun _ => positive) fun _ _ => orders.positive
  · rw [orders.expiring]
    by_cases here : j = id
    · subst here
      simp [absent]
    · rw [OrdMap.get?_insert_of_ne here]
      simp [Ne.symm here]

section
variable (orders : Orders views (some id) ownership expiries)
include orders

/-- What happens to the record of the order in flight is not seen in the books. -/
theorem Orders.fly (key_eq : next.order_id = id) (positive : next.state = .Active → 0 < next.remaining_quantity) :
    Orders views (some id) (ownership.insert id next) expiries := by
  refine ⟨fun {j other} there => ?_,fun key j => ?_,fun {j other} there => ?_,fun time j => ?_⟩
  · exact OrdMap.of_insert there key_eq fun _ _ => orders.keyed
  · rw [orders.agrees]
    by_cases here : j = id
    · subst here
      have nowhere (records : OrdMap OrderId OwnedOrder) : rested records (some j) key j = none := by
        unfold rested
        cases records.get? j <;> simp
      rw [nowhere,nowhere]
    · exact (rested_of_ne here).symm
  · exact OrdMap.of_insert there positive fun _ _ => orders.positive
  · rw [orders.expiring]
    by_cases here : j = id
    · subst here; simp
    · rw [OrdMap.get?_insert_of_ne here]

/-- The order in flight rests, and its expiry is kept from now on. -/
theorem Orders.land (found : ownership.get? id = some owned) (active : owned.state = .Active) :
    Orders (Function.update views owned.listing_key ((views owned.listing_key).set id (some owned.resting))) none
      ownership (add_expiry owned.expires_at id expiries) := by
  refine ⟨orders.keyed,fun key j => ?_,orders.positive,fun time j => ?_⟩
  · by_cases here : j = id
    · subst here
      by_cases at_key : key = owned.listing_key
      · subst at_key
        simp [rested,found,active]
      · rw [Function.update_of_ne at_key,orders.agrees,rested,rested,found]
        simp [Ne.symm at_key]
    · have others : rested ownership none key j = rested ownership (some id) key j := by
        simp [rested,Ne.symm here]
      rw [others,← orders.agrees]
      by_cases at_key : key = owned.listing_key
      · subst at_key
        rw [Function.update_self,OrdMap.get?_set_of_ne _ _ here]
      · rw [Function.update_of_ne at_key]
  · rw [contains_add_expiry,orders.expiring]
    by_cases here : j = id
    · subst here
      simp [found,active]
    · simp [here,Ne.symm here]

theorem Orders.crash (found : ownership.get? id = some owned)
    (ended : owned.state ≠ .Active) : Orders views none ownership expiries := by
  refine ⟨orders.keyed,fun key j => ?_,orders.positive,fun time j => ?_⟩
  · rw [orders.agrees]
    by_cases here : j = id
    · subst here; simp [rested,found,ended]
    · simp [rested,Ne.symm here]
  · rw [orders.expiring]
    by_cases here : j = id
    · subst here; simp [found,ended]
    · simp [Ne.symm here]

end

theorem Orders.prune (orders : Orders views none ownership expiries) {dropped : List OrderId}
    (ended : ∀ id ∈ dropped, ∀ owned, ownership.get? id = some owned → owned.state ≠ .Active) :
    Orders views none (dropped.foldl OrdMap.erase ownership) expiries := by
  have kept {j : OrderId} {other : OwnedOrder} (there : (dropped.foldl OrdMap.erase ownership).get? j = some other) :
      ownership.get? j = some other := by
    rw [OrdMap.get?_foldl_erase] at there
    split_ifs at there
    exact there
  have live {j : OrderId} {other : OwnedOrder} (active : other.state = .Active) :
      (dropped.foldl OrdMap.erase ownership).get? j = some other ↔ ownership.get? j = some other := by
    refine ⟨kept,fun there => ?_⟩
    rw [OrdMap.get?_foldl_erase,if_neg fun member => ended j member other there active]
    exact there
  refine ⟨fun there => orders.keyed (kept there),fun key j => ?_,fun there => orders.positive (kept there),
    fun time j => ?_⟩
  · rw [orders.agrees]
    ext order
    simp only [rested,Option.bind_eq_some_iff]
    constructor <;> rintro ⟨other,there,rest⟩ <;> refine ⟨other,?_,rest⟩ <;> split_ifs at rest with here
    · exact (live here.1).mpr there
    · exact (live here.1).mp there
  · rw [orders.expiring]
    constructor <;> rintro ⟨other,there,active,rest⟩
    · exact ⟨other,(live active).mpr there,active,rest⟩
    · exact ⟨other,(live active).mp there,active,rest⟩

end Moves

/-! ### What the live orders hold -/

def currency_of (terms : OrdMap InstrumentId InstrumentTerms) (instrument : InstrumentId) : CurrencyId :=
  (terms.get? instrument).elim 0 InstrumentTerms.currency

/-- The entry that opened a quantity of an order. -/
def OwnedOrder.entry (terms : OrdMap InstrumentId InstrumentTerms) (owned : OwnedOrder) (quantity : Int) : Entry :=
  .opening owned.participant_id (currency_of terms owned.listing_key.instrument_id) owned.listing_key.instrument_id
    owned.side owned.reservation quantity

/-- What a live order holds of an account. -/
def OwnedOrder.holds (terms : OrdMap InstrumentId InstrumentTerms) (counter : Counter) (owned : OwnedOrder) : Int :=
  if owned.state = .Active then counter.change (owned.entry terms owned.remaining_quantity) else 0

/-- What the live orders hold of an account together. -/
def held (terms : OrdMap InstrumentId InstrumentTerms) (ownership : OrdMap OrderId OwnedOrder) (counter : Counter) : Int :=
  ownership.sum (fun _ owned => owned.holds terms counter)

/-- The counters of the ledger are what the live orders hold. -/
def Reserved (ledger : Ledger) (ownership : OrdMap OrderId OwnedOrder) : Prop :=
  ∀ counter : Counter, counter.read ledger = held ledger.terms ownership counter

/-- The record of an order after an execution of `quantity`. -/
def OwnedOrder.reduced (quantity : Int) (owned : OwnedOrder) : OwnedOrder :=
  { owned with
    remaining_quantity := owned.remaining_quantity - quantity
    state := if owned.remaining_quantity - quantity = 0 then .Filled else owned.state }

section Held
variable {terms : OrdMap InstrumentId InstrumentTerms} {ownership : OrdMap OrderId OwnedOrder} {id : OrderId}
  {owned next : OwnedOrder} {counter : Counter}

theorem held_replace (found : ownership.get? id = some owned) (next : OwnedOrder) (counter : Counter) :
    held terms (ownership.insert id next) counter =
      held terms ownership counter - owned.holds terms counter + next.holds terms counter := by
  have moved := ownership.sum_insert (fun _ owned => owned.holds terms counter) id next
  rw [found] at moved
  simp only [Option.elim] at moved
  unfold held
  omega

theorem OwnedOrder.holds_reduced (active : owned.state = .Active) (quantity : Int) (counter : Counter) :
    (owned.reduced quantity).holds terms counter =
      owned.holds terms counter - counter.change (owned.entry terms quantity) := by
  have parts := counter.change_opening_add owned.participant_id (currency_of terms owned.listing_key.instrument_id)
    owned.listing_key.instrument_id owned.side owned.reservation (owned.remaining_quantity - quantity) quantity
  rw [sub_add_cancel] at parts
  unfold OwnedOrder.holds OwnedOrder.reduced OwnedOrder.entry
  simp only [active,if_true]
  by_cases spent : owned.remaining_quantity - quantity = 0
  · rw [spent,Counter.change_opening_zero] at parts
    simp only [spent,if_true]
    rw [if_neg (by simp)]
    omega
  · rw [if_neg spent,if_pos rfl]
    omega

end Held

end Bunting
