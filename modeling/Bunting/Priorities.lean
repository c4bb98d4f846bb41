import Bunting.BookSound

/-!
The place of resting orders in time. An order keeps its priority while part of
what it displays is left; then the rest of it is queued again behind every order
that was there. So priorities are never given twice.
-/

namespace Bunting
open Stateful

/-- What rests of an order after `quantity` of it has traded. -/
def BookOrder.after (next : Nat) (quantity : Int) (order : BookOrder) : Option BookOrder :=
  let remaining := order.remaining - quantity
  if remaining ≤ 0 then none
  else if quantity < order.visible then some { order with remaining, visible := order.visible - quantity }
  else some { order with remaining, visible := min (order.display.getD remaining) remaining, priority := next }

namespace Book

/-- How a resting order goes on. It keeps its place and displays less by what
    traded, or all that it displayed traded and it is queued behind every order
    of before. -/
structure Continues (next : Nat) (order order' : BookOrder) : Prop where
  order_id : order'.order_id = order.order_id
  side : order'.side = order.side
  price : order'.price = order.price
  display : order'.display = order.display
  shrinks : order'.remaining ≤ order.remaining
  place : (order'.priority = order.priority ∧ order.visible - order'.visible = order.remaining - order'.remaining) ∨
    (next ≤ order'.priority ∧ order.visible ≤ order.remaining - order'.remaining)

/-- No two orders of a book have one priority. -/
def Ranked (book : Book) : Prop :=
  ∀ id id' order order', book.orders.get? id = some order → book.orders.get? id' = some order' →
    order.priority = order'.priority → id = id'

/-- An iceberg displays its peak at most. -/
def BookOrder.Peaked (order : BookOrder) : Prop := ∀ peak ∈ order.display, order.visible ≤ peak

def Peaked (book : Book) : Prop := ∀ id order, book.orders.get? id = some order → BookOrder.Peaked order

/-- What matching and cancelling do: every order that still rests goes on, and priorities are only given once. -/
structure Advances (book book' : Book) : Prop where
  next : book.next_priority ≤ book'.next_priority
  continues : ∀ id order', book'.orders.get? id = some order' →
    ∃ order, book.orders.get? id = some order ∧ Continues book.next_priority order order'
  ranked : book.Ranked → book'.Ranked
  peaked : book.Peaked → book'.Peaked

theorem Continues.refl (next : Nat) (order : BookOrder) : Continues next order order :=
  ⟨rfl,rfl,rfl,rfl,le_rfl,.inl ⟨rfl,by omega⟩⟩

theorem Continues.trans {next later : Nat} {a b c : BookOrder} (first : Continues next a b) (second : Continues later b c)
    (grows : next ≤ later) : Continues next a c := by
  have less := first.shrinks
  have less' := second.shrinks
  refine ⟨second.order_id.trans first.order_id,second.side.trans first.side,second.price.trans first.price,
    second.display.trans first.display,by omega,?_⟩
  rcases first.place with ⟨same,used⟩ | ⟨behind,used⟩
  · rcases second.place with ⟨same',used'⟩ | ⟨behind',used'⟩
    · exact .inl ⟨same'.trans same,by omega⟩
    · exact .inr ⟨by omega,by omega⟩
  · rcases second.place with ⟨same',_⟩ | ⟨behind',_⟩
    · exact .inr ⟨by omega,by omega⟩
    · exact .inr ⟨by omega,by omega⟩

section Advances
variable {book book' book'' : Book} {id : OrderId} {order order' : BookOrder}

theorem Advances.refl (book : Book) : Advances book book :=
  ⟨le_rfl,fun _ order found => ⟨order,found,.refl _ _⟩,fun ranked => ranked,fun peaked => peaked⟩

theorem Advances.trans (first : Advances book book') (second : Advances book' book'') : Advances book book'' := by
  refine ⟨first.next.trans second.next,fun id last found => ?_,fun ranked => second.ranked (first.ranked ranked),
    fun peaked => second.peaked (first.peaked peaked)⟩
  obtain ⟨middle,there,later⟩ := second.continues id last found
  obtain ⟨order,rests,earlier⟩ := first.continues id middle there
  exact ⟨order,rests,earlier.trans later first.next⟩

theorem Advances.erase (orders : book'.orders = book.orders.erase id) (next : book.next_priority ≤ book'.next_priority) :
    Advances book book' := by
  have stayed {other : OrderId} {rests : BookOrder} (found : book'.orders.get? other = some rests) :
      book.orders.get? other = some rests := by
    rw [orders] at found
    exact OrdMap.of_erase found
  exact ⟨next,fun other rests found => ⟨rests,stayed found,.refl _ _⟩,
    fun ranked first second _ _ found found' => ranked first second _ _ (stayed found) (stayed found'),
    fun peaked _ _ found => peaked _ _ (stayed found)⟩

/-- An order goes on. If it is queued again, no order had its new priority. -/
theorem Advances.put (sound : book.Sound) (found : book.orders.get? id = some order)
    (orders : book'.orders = book.orders.insert id order') (next : book.next_priority ≤ book'.next_priority)
    (continues : Continues book.next_priority order order') (peak : BookOrder.Peaked order → BookOrder.Peaked order') :
    Advances book book' := by
  have alone {other : OrderId} {rests : BookOrder} (ranked : book.Ranked) (there : book.orders.get? other = some rests)
      (same : rests.priority = order'.priority) : other = id := by
    rcases continues.place with ⟨kept,_⟩ | ⟨behind,_⟩
    · exact ranked other id _ _ there found (same.trans kept)
    · have := (sound.order there).priority
      omega
  refine ⟨next,fun other rests there => ?_,fun ranked first second rests rests' there there' same => ?_,
    fun peaked other rests there => ?_⟩
  · rw [orders] at there
    exact OrdMap.of_insert there ⟨order,found,continues⟩ fun _ rests there => ⟨rests,there,.refl _ _⟩
  · rw [orders,OrdMap.get?_insert] at there there'
    split_ifs at there there' with here here' here'
    · exact here.trans here'.symm
    · cases there
      exact here.trans (alone ranked there' same.symm).symm
    · cases there'
      exact (alone ranked there same).trans here'.symm
    · exact ranked first second _ _ there there' same
  · rw [orders] at there
    exact OrdMap.of_insert there (peak (peaked _ _ found)) peaked

end Advances

section After
variable {order left : BookOrder} {next : Nat} {quantity : Int}

theorem after_same (after : order.after next quantity = some left) :
    left.order_id = order.order_id ∧ left.side = order.side ∧ left.price = order.price ∧ left.display = order.display ∧
      left.remaining = order.remaining - quantity := by
  unfold BookOrder.after at after
  dsimp only at after
  split_ifs at after <;> cases after <;> simp

theorem after_continues (positive : 0 < quantity) (after : order.after next quantity = some left) :
    Continues next order left ∧ (BookOrder.Peaked order → BookOrder.Peaked left) := by
  obtain ⟨id,side,price,display,remains⟩ := after_same after
  unfold BookOrder.after at after
  dsimp only at after
  split_ifs at after with filled shown <;> cases after
  · refine ⟨⟨id,side,price,display,by simp only; omega,.inl ⟨rfl,by simp only; omega⟩⟩,fun peaked peak shown => ?_⟩
    have := peaked peak shown
    simp only
    omega
  · refine ⟨⟨id,side,price,display,by simp only; omega,.inr ⟨le_rfl,by simp only; omega⟩⟩,fun _ peak shown => ?_⟩
    have shown : order.display = some peak := shown
    simp [shown]

end After

end Book
end Bunting
