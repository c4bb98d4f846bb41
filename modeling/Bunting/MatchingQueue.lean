import Bunting.Auction

/-!
The queue of one side of a book: its resting orders in matching priority. What
trades is the head of the queue. It stays there while some of its slice is
displayed, and goes behind the others of its price once the slice is used up
(`traded`).
-/

namespace Bunting
open Stateful

namespace Book

section Resting
variable {book : Book} {side : Side} {order : BookOrder}

/-- Matching priority on one side: the better price, then the earlier place. -/
def Ahead (side : Side) (a b : BookOrder) : Prop :=
  (match side with
    | .Buy => b.price < a.price
    | .Sell => a.price < b.price) ∨ (a.price = b.price ∧ a.priority < b.priority)

theorem resting_eq (book : Book) (side : Side) :
    book.resting side = (book.swept side.opposite).flatMap fun e => e.2.queue.values.filterMap book.orders.get? := by
  cases side with
  | Buy => simp [resting,swept,Side.opposite,OrdMap.values,List.filterMap_flatMap,List.flatMap_map,← List.map_reverse]
  | Sell => simp [resting,swept,Side.opposite,OrdMap.values,List.filterMap_flatMap,List.flatMap_map]

/-- A level lists the orders it queues, in the order of their priorities. -/
theorem Sound.level_orders (sound : book.Sound) {e : Int × Level} (member : e ∈ book.swept side.opposite) :
    (∀ order, order ∈ e.2.queue.values.filterMap book.orders.get? ↔
      book.orders.get? order.order_id = some order ∧ BookOrder.At side e.1 order) ∧
    (e.2.queue.values.filterMap book.orders.get?).Pairwise fun a b => a.priority < b.priority := by
  have level := mem_swept.mp member
  rw [side.opposite_opposite] at level
  have queued := (sound.holds side e.1).queued
  rw [entry,level,Option.getD_some] at queued
  refine ⟨fun order => ?_,?_⟩
  · rw [List.mem_filterMap]
    constructor
    · rintro ⟨id,inside,found⟩
      obtain ⟨⟨priority,_⟩,there,rfl⟩ := List.mem_map.mp inside
      obtain ⟨other,found',at_level,_⟩ := (queued _ _).mp (OrdMap.get?_eq_some_iff.mpr there)
      cases found.symm.trans found'
      exact ⟨by rw [(sound.order found).order_id]; exact found,at_level⟩
    · rintro ⟨found,at_level⟩
      have there := (queued order.priority order.order_id).mpr ⟨order,found,at_level,rfl⟩
      exact ⟨_,List.mem_map.mpr ⟨_,OrdMap.get?_eq_some_iff.mp there,rfl⟩,found⟩
  · rw [List.pairwise_filterMap,OrdMap.values,List.pairwise_map]
    refine e.2.queue.sorted.imp_of_mem fun {a b} first second less x found y found' => ?_
    obtain ⟨_,there,_,priority⟩ := (queued _ _).mp (OrdMap.get?_eq_some_iff.mpr first)
    obtain ⟨_,there',_,priority'⟩ := (queued _ _).mp (OrdMap.get?_eq_some_iff.mpr second)
    cases found.symm.trans there
    cases found'.symm.trans there'
    rw [priority,priority']
    exact less

theorem Sound.mem_resting (sound : book.Sound) :
    order ∈ book.resting side ↔ book.orders.get? order.order_id = some order ∧ order.side = side := by
  rw [resting_eq,List.mem_flatMap]
  constructor
  · rintro ⟨e,member,inside⟩
    obtain ⟨found,at_level⟩ := ((sound.level_orders member).1 order).mp inside
    exact ⟨found,at_level.1⟩
  · rintro ⟨found,rfl⟩
    obtain ⟨level,there⟩ := sound.has_level (view_of_order found)
    have member : (order.price,level) ∈ book.swept order.side.opposite :=
      mem_swept.mpr (by rw [Side.opposite_opposite]; exact there)
    exact ⟨_,member,((sound.level_orders member).1 order).mpr ⟨found,rfl,rfl⟩⟩

/-- The orders of one side are listed in matching priority. -/
theorem Sound.resting_sorted (sound : book.Sound) (side : Side) : (book.resting side).Pairwise (Ahead side) := by
  have levels : (book.swept side.opposite).Pairwise fun a b => match side with
      | .Buy => b.1 < a.1
      | .Sell => a.1 < b.1 := by
    cases side with
    | Buy => exact List.pairwise_reverse.mpr book.bids.sorted
    | Sell => exact book.asks.sorted
  rw [resting_eq,List.pairwise_flatMap]
  refine ⟨fun e member => ?_,levels.imp_of_mem fun {a b} first second better x inside y inside' => .inl ?_⟩
  · obtain ⟨orders,sorted⟩ := sound.level_orders member
    refine sorted.imp_of_mem fun {x y} inside inside' earlier => .inr ⟨?_,earlier⟩
    rw [((orders x).mp inside).2.2,((orders y).mp inside').2.2]
  · rw [(((sound.level_orders first).1 x).mp inside).2.2,(((sound.level_orders second).1 y).mp inside').2.2]
    exact better

theorem Ahead.irrefl (side : Side) (order : BookOrder) : ¬ Ahead side order order := by
  cases side <;> simp [Ahead]

end Resting

/-- An order behind the others of its price. -/
def requeue (order : BookOrder) (rest : List BookOrder) : List BookOrder :=
  rest.filter (fun other => other.price = order.price) ++ order :: rest.filter (fun other => ¬ other.price = order.price)

def traded (next : Nat) (quantity : Int) (order : BookOrder) (rest : List BookOrder) : List BookOrder :=
  match order.after next quantity with
  | none => rest
  | some left => if quantity < order.visible then left :: rest else requeue left rest

section After
variable {order left other : BookOrder} {next : Nat} {quantity : Int} {rest : List BookOrder}

theorem mem_requeue : other ∈ requeue order rest ↔ other = order ∨ other ∈ rest := by
  simp only [requeue,List.mem_append,List.mem_cons,List.mem_filter,decide_eq_true_eq]
  by_cases same : other.price = order.price <;> simp only [same,not_true,not_false_iff,and_true,and_false,or_false,false_or]
  exact or_comm

theorem mem_traded : other ∈ traded next quantity order rest ↔ order.after next quantity = some other ∨ other ∈ rest := by
  unfold traded
  cases after : order.after next quantity with
  | none => simp
  | some left =>
    dsimp only
    split_ifs <;> simp [mem_requeue,eq_comm]

end After

section Ahead
variable {side : Side} {a b c : BookOrder} {l l' : List BookOrder}

theorem Ahead.asymm (first : Ahead side a b) (second : Ahead side b a) : False := by
  cases side <;> simp only [Ahead] at first second <;> omega

theorem Ahead.congr (price : a.price = b.price) (priority : a.priority = b.priority) (ahead : Ahead side a c) :
    Ahead side b c := by
  cases side <;> simp only [Ahead] at ahead ⊢ <;> omega

theorem Ahead.other_price (ahead : Ahead side a c) (other : ¬ c.price = a.price) (same : b.price = a.price) :
    Ahead side b c := by
  cases side <;> simp only [Ahead] at ahead ⊢ <;> omega

/-- A queue is determined by its orders. -/
theorem eq_of_ahead (sorted : l.Pairwise (Ahead side)) (sorted' : l'.Pairwise (Ahead side))
    (same : ∀ order, order ∈ l ↔ order ∈ l') : l = l' := by
  have nodup {l : List BookOrder} (sorted : l.Pairwise (Ahead side)) : l.Nodup := by
    refine sorted.imp fun {a b} ahead same => ?_
    rw [same] at ahead
    exact Ahead.irrefl side b ahead
  refine List.Perm.eq_of_pairwise (fun a b _ _ first second => (Ahead.asymm first second).elim) sorted sorted' ?_
  exact (List.perm_ext_iff_of_nodup (nodup sorted) (nodup sorted')).mpr same

theorem requeue_sorted (sorted : (a :: l).Pairwise (Ahead side)) (price : b.price = a.price)
    (last : ∀ order ∈ l, order.priority < b.priority) : (requeue b l).Pairwise (Ahead side) := by
  obtain ⟨first,rest⟩ := List.pairwise_cons.mp sorted
  refine List.pairwise_append.mpr ⟨rest.filter _,List.pairwise_cons.mpr ⟨fun c member => ?_,rest.filter _⟩,
    fun c member d member' => ?_⟩
  · obtain ⟨inside,other⟩ := List.mem_filter.mp member
    exact (first c inside).other_price (by simpa [price] using other) price
  · obtain ⟨inside,same⟩ := List.mem_filter.mp member
    have same : c.price = b.price := by simpa using same
    obtain rfl | behind := List.mem_cons.mp member'
    · exact .inr ⟨same,last c inside⟩
    · obtain ⟨inside',other⟩ := List.mem_filter.mp behind
      exact (first d inside').other_price (by simpa [price] using other) (same.trans price)

end Ahead

section Trade
variable {book book' : Book} {side : Side} {order : BookOrder} {rest : List BookOrder} {quantity : Int}

variable (sound : book.Sound)
include sound

theorem Sound.resting_ahead (queue : book.resting side = order :: rest) :
    ∀ other ∈ rest, Ahead side order other := by
  have sorted := sound.resting_sorted side
  rw [queue] at sorted
  exact (List.pairwise_cons.mp sorted).1

theorem Sound.resting_distinct (queue : book.resting side = order :: rest) :
    ∀ other ∈ rest, other.order_id ≠ order.order_id := by
  intro other member same
  have found := (sound.mem_resting.mp (queue ▸ List.mem_cons_self ..)).1
  have there := (sound.mem_resting.mp (queue ▸ List.mem_cons_of_mem _ member)).1
  rw [same,found] at there
  cases there
  exact Ahead.irrefl _ _ (sound.resting_ahead queue order member)

/-- The orders of one side after the head of the queue has traded. -/
theorem Sound.resting_traded (sound' : book'.Sound) (queue : book.resting side = order :: rest)
    (orders : book'.orders = book.orders.set order.order_id (order.after book.next_priority quantity)) :
    book'.resting side = traded book.next_priority quantity order rest := by
  have sorted := sound.resting_sorted side
  rw [queue] at sorted
  obtain ⟨first,tail⟩ := List.pairwise_cons.mp sorted
  have rests {other : BookOrder} (member : other ∈ order :: rest) := sound.mem_resting.mp (queue ▸ member)
  obtain ⟨found,rfl⟩ := rests (List.mem_cons_self ..)
  refine eq_of_ahead (sound'.resting_sorted _) ?_ fun other => ?_
  · unfold traded
    cases after : order.after book.next_priority quantity with
    | none => exact tail
    | some left =>
      have same := after_same after
      unfold BookOrder.after at after
      dsimp only at after ⊢
      split_ifs at after ⊢ with filled shown <;> cases after
      · exact List.pairwise_cons.mpr ⟨fun other member => (first other member).congr rfl rfl,tail⟩
      · exact requeue_sorted sorted same.2.2.1 fun other member =>
          (sound.order (rests (List.mem_cons_of_mem _ member)).1).priority
  · rw [mem_traded,sound'.mem_resting,orders,OrdMap.get?_set]
    by_cases here : other.order_id = order.order_id
    · rw [if_pos here]
      constructor
      · exact fun ⟨after,_⟩ => .inl after
      · rintro (after | member)
        · exact ⟨after,(after_same after).2.1⟩
        · exact (sound.resting_distinct queue other member here).elim
    · rw [if_neg here]
      constructor
      · intro found
        have member := sound.mem_resting.mpr found
        rw [queue] at member
        obtain rfl | member := List.mem_cons.mp member
        · exact (here rfl).elim
        · exact .inr member
      · rintro (after | member)
        · exact (here (after_same after).1).elim
        · exact rests (List.mem_cons_of_mem _ member)

/-- The orders of the other side stay as they are. -/
theorem Sound.resting_other (sound' : book'.Sound) {left : Option BookOrder}
    (found : book.orders.get? order.order_id = some order) (other : side ≠ order.side)
    (same : ∀ after, left = some after → after.side = order.side)
    (orders : book'.orders = book.orders.set order.order_id left) : book'.resting side = book.resting side := by
  refine eq_of_ahead (sound'.resting_sorted _) (sound.resting_sorted _) fun o => ?_
  rw [sound'.mem_resting,sound.mem_resting,orders,OrdMap.get?_set]
  by_cases here : o.order_id = order.order_id
  · rw [if_pos here,here,found]
    constructor
    · rintro ⟨after,rfl⟩
      exact (other (same o after)).elim
    · rintro ⟨is,rfl⟩
      cases is
      exact (other rfl).elim
  · rw [if_neg here]

/-- The first order of the best level is the head of the queue. -/
theorem Sound.resting_head {price : Int} (best : book.best side = some price)
    (head : book.head side price = .ok order) : ∃ rest, book.resting side = order :: rest := by
  obtain ⟨found,rfl,rfl⟩ := head_ok sound head
  have first (other : BookOrder) (member : other ∈ book.resting order.side) : ¬ Ahead order.side other order := by
    obtain ⟨there,same⟩ := sound.mem_resting.mp member
    simp only [Book.head,except_orElse_eq_ok] at head
    obtain ⟨level,here,head⟩ := Option.bind_eq_some_iff.mp head
    obtain ⟨e,head,is⟩ := Option.bind_eq_some_iff.mp head
    have queued := (sound.holds order.side order.price).queued
    rw [entry,Book.level,here,Option.getD_some] at queued
    have priority : order.priority = e.1 := by
      obtain ⟨_,is',_,priority⟩ := (queued e.1 e.2).mp (OrdMap.get?_of_first? head)
      cases is.symm.trans is'
      exact priority
    have better : (match order.side with | .Buy => other.price ≤ order.price | .Sell => order.price ≤ other.price) := by
      cases side : order.side with
      | Buy => exact sound.le_best (by rw [← side]; exact best) (view_of_order there) (same.trans side)
      | Sell => exact sound.best_le (by rw [← side]; exact best) (view_of_order there) (same.trans side)
    have earliest (level : other.price = order.price) : order.priority ≤ other.priority := by
      rw [priority]
      exact OrdMap.first?_le head ((queued other.priority other.order_id).mpr ⟨other,there,⟨same,level⟩,rfl⟩)
    cases side : order.side <;> rw [side] at better <;> simp only [Ahead] at better ⊢ <;> omega
  obtain ⟨before,rest,queue⟩ := List.append_of_mem (sound.mem_resting.mpr ⟨found,rfl⟩)
  have sorted := sound.resting_sorted order.side
  rw [queue] at sorted
  cases before with
  | nil => exact ⟨rest,queue⟩
  | cons other before =>
    refine (first other (by rw [queue]; simp) ?_).elim
    exact (List.pairwise_cons.mp sorted).1 order (by simp)

end Trade

end Book
end Bunting
