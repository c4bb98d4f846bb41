import Bunting.Book

/-!
The representation invariant of a book and its abstract view. `Book.Sound` says
that the levels hold exactly the resting orders, in queues keyed by priority and
with exact totals. `Book.view` forgets levels, slices and priorities.
-/

namespace Bunting
open Stateful

theorem Side.opposite_opposite (side : Side) : side.opposite.opposite = side := by cases side <;> rfl
namespace Book

def level (book : Book) (side : Side) (price : Int) : Option Level := (book.levels side).get? price

/-- What rests of one order. -/
structure Resting where
  side : Side
  price : Int
  remaining : Int
  deriving DecidableEq

/-- The orders a book holds, without their place in it. -/
def view (book : Book) : OrdMap OrderId Resting :=
  book.orders.mapValues (fun _ order => ⟨order.side,order.price,order.remaining⟩)

theorem get?_view (book : Book) (id : OrderId) :
    book.view.get? id = (book.orders.get? id).map (fun order => ⟨order.side,order.price,order.remaining⟩) :=
  OrdMap.get?_mapValues ..

/-- What every resting order satisfies. -/
structure WellFormed (next : Nat) (id : OrderId) (order : BookOrder) : Prop where
  order_id : order.order_id = id
  price : 0 < order.price
  visible : 0 < order.visible
  hidden : order.visible ≤ order.remaining
  priority : order.priority < next

/-- The order displays something whenever it is queued anew: its peak is positive, it has nothing hidden, or no priority
    is left to queue it with. -/
abbrev Shows (next : Nat) (order : BookOrder) : Prop :=
  ∀ peak ∈ order.display, 0 < peak ∨ order.visible = order.remaining ∨ 18446744073709551615 ≤ next

/-- The order belongs to the level. -/
def BookOrder.At (side : Side) (price : Int) (order : BookOrder) : Prop := order.side = side ∧ order.price = price

instance (side : Side) (price : Int) (order : BookOrder) : Decidable (BookOrder.At side price order) :=
  inferInstanceAs (Decidable (_ ∧ _))

/-- The sum of a quantity over the orders of one level. -/
def level_sum (orders : OrdMap OrderId BookOrder) (side : Side) (price : Int) (f : BookOrder → Int) : Int :=
  orders.sum (fun _ order => if BookOrder.At side price order then f order else 0)

/-- The level queues exactly the orders at its side and price, with their totals. -/
structure LevelSound (orders : OrdMap OrderId BookOrder) (side : Side) (price : Int) (level : Level) : Prop where
  queued : ∀ priority id, level.queue.get? priority = some id ↔
    ∃ order, orders.get? id = some order ∧ BookOrder.At side price order ∧ order.priority = priority
  visible : level.visible = level_sum orders side price BookOrder.visible
  total : level.total = level_sum orders side price BookOrder.remaining
  fits : level.total ≤ 9223372036854775807

/-- One level of one side; a price without one has the empty level. -/
def entry (book : Book) (side : Side) (price : Int) : Level := (book.level side price).getD {}

/-- The levels queue and sum up the resting orders. -/
structure Indexed (book : Book) : Prop where
  order : ∀ {id order}, book.orders.get? id = some order → WellFormed book.next_priority id order
  holds : ∀ side price, LevelSound book.orders side price (book.entry side price)
  nonempty : ∀ {side price level}, book.level side price = some level → ∃ e, level.queue.first? = some e

structure Sound (book : Book) : Prop extends Indexed book where
  shows : ∀ {id order}, book.orders.get? id = some order → Shows book.next_priority order

theorem sound_start (next : Nat) : Sound { next_priority := next } := by
  have none (side : Side) (price : Int) : ({ next_priority := next } : Book).level side price = none := by cases side <;> rfl
  refine ⟨⟨fun found => (by cases found),fun side price => ?_,fun {side price level} found => ?_⟩,fun found => (by cases found)⟩
  · rw [entry,none]
    exact ⟨fun _ _ => ⟨fun queued => (by cases queued),fun ⟨_,found,_⟩ => (by cases found)⟩,rfl,rfl,by simp⟩
  · rw [none] at found
    cases found

theorem sound_empty : Sound {} := sound_start 0

section Levels
variable {orders : OrdMap OrderId BookOrder} {side : Side} {price : Int} {level : Level} {order : BookOrder}
  {id : OrderId}

theorem level_sum_insert (absent : orders.get? id = none) (f : BookOrder → Int) :
    level_sum (orders.insert id order) side price f =
      level_sum orders side price f + if BookOrder.At side price order then f order else 0 := by
  unfold level_sum
  rw [OrdMap.sum_insert_new _ _ absent]

theorem level_sum_erase (found : orders.get? id = some order) (f : BookOrder → Int) :
    level_sum (orders.erase id) side price f =
      level_sum orders side price f - if BookOrder.At side price order then f order else 0 := by
  have := OrdMap.sum_erase orders (fun _ order => if BookOrder.At side price order then f order else 0) id
  rw [found] at this
  simp only [Option.elim] at this
  unfold level_sum
  omega

variable (sound : LevelSound orders side price level)
include sound

theorem LevelSound.insert_elsewhere (absent : orders.get? id = none)
    (elsewhere : ¬ BookOrder.At side price order) : LevelSound (orders.insert id order) side price level := by
  refine ⟨fun priority j => ?_,?_,?_,sound.fits⟩
  · rw [sound.queued]
    by_cases same : j = id
    · subst same
      constructor
      · rintro ⟨other,found,_⟩; rw [absent] at found; cases found
      · rintro ⟨other,found,at_level,_⟩
        rw [OrdMap.get?_insert_self] at found
        cases found
        exact absurd at_level elsewhere
    · rw [OrdMap.get?_insert_of_ne same]
  · rw [level_sum_insert absent,if_neg elsewhere,add_zero,sound.visible]
  · rw [level_sum_insert absent,if_neg elsewhere,add_zero,sound.total]

theorem LevelSound.insert_here (absent : orders.get? id = none)
    (fresh : level.queue.get? order.priority = none) (here : BookOrder.At side price order)
    (fits : level.total + order.remaining ≤ 9223372036854775807) :
    LevelSound (orders.insert id order) side price
      ⟨level.queue.insert order.priority id,level.visible + order.visible,level.total + order.remaining⟩ := by
  refine ⟨fun priority j => ?_,?_,?_,fits⟩
  · by_cases same : j = id
    · subst same
      rw [OrdMap.get?_insert_self]
      constructor
      · intro queued
        rw [OrdMap.get?_insert] at queued
        split_ifs at queued with at_priority
        · exact ⟨order,rfl,here,at_priority.symm⟩
        · obtain ⟨other,found,_⟩ := (sound.queued _ _).mp queued
          rw [absent] at found
          cases found
      · rintro ⟨other,found,_,rfl⟩
        cases found
        exact OrdMap.get?_insert_self ..
    · rw [OrdMap.get?_insert_of_ne same,← sound.queued,OrdMap.get?_insert]
      split_ifs with at_priority
      · subst at_priority
        rw [fresh]
        exact ⟨fun queued => absurd (Option.some.inj queued).symm same,fun queued => by cases queued⟩
      · rfl
  · rw [level_sum_insert absent,if_pos here,sound.visible]
  · rw [level_sum_insert absent,if_pos here,sound.total]

theorem LevelSound.erase_elsewhere (found : orders.get? id = some order)
    (elsewhere : ¬ BookOrder.At side price order) : LevelSound (orders.erase id) side price level := by
  refine ⟨fun priority j => ?_,?_,?_,sound.fits⟩
  · rw [sound.queued]
    by_cases same : j = id
    · subst same
      rw [OrdMap.get?_erase_self,found]
      constructor
      · rintro ⟨other,there,at_level,_⟩; cases there; exact absurd at_level elsewhere
      · rintro ⟨other,there,_⟩; cases there
    · rw [OrdMap.get?_erase_of_ne _ same]
  · rw [level_sum_erase found,if_neg elsewhere,sub_zero,sound.visible]
  · rw [level_sum_erase found,if_neg elsewhere,sub_zero,sound.total]

theorem LevelSound.erase_here (found : orders.get? id = some order)
    (here : BookOrder.At side price order) (positive : 0 < order.remaining) :
    LevelSound (orders.erase id) side price
      ⟨level.queue.erase order.priority,level.visible - order.visible,level.total - order.remaining⟩ := by
  have own : level.queue.get? order.priority = some id := (sound.queued _ _).mpr ⟨order,found,here,rfl⟩
  have fits := sound.fits
  refine ⟨fun priority j => ?_,?_,?_,by simp only; omega⟩
  · rw [OrdMap.get?_erase]
    by_cases same : j = id
    · subst same
      rw [OrdMap.get?_erase_self]
      constructor
      · intro queued
        split_ifs at queued with at_priority
        obtain ⟨other,there,_,rfl⟩ := (sound.queued _ _).mp queued
        cases found.symm.trans there
        exact absurd rfl at_priority
      · rintro ⟨other,there,_⟩; cases there
    · rw [OrdMap.get?_erase_of_ne _ same,← sound.queued]
      split_ifs with at_priority
      · subst at_priority
        rw [own]
        exact ⟨fun queued => (by cases queued),fun queued => absurd (Option.some.inj queued).symm same⟩
      · rfl
  · rw [level_sum_erase found,if_pos here,sound.visible]
  · rw [level_sum_erase found,if_pos here,sound.total]

end Levels

section Writes
variable (book : Book) (side : Side) (price : Int)

@[simp] theorem orders_set_levels (levels : OrdMap Int Level) : (book.set_levels side levels).orders = book.orders := by
  cases side <;> rfl
@[simp] theorem next_set_levels (levels : OrdMap Int Level) :
    (book.set_levels side levels).next_priority = book.next_priority := by cases side <;> rfl
@[simp] theorem levels_set_levels (levels : OrdMap Int Level) : (book.set_levels side levels).levels side = levels := by
  cases side <;> rfl
theorem levels_set_levels_of_ne (levels : OrdMap Int Level) {other : Side} (ne : other ≠ side) :
    (book.set_levels side levels).levels other = book.levels other := by
  cases side <;> cases other <;> first | rfl | exact absurd rfl ne
@[simp] theorem set_levels_set_levels (levels levels' : OrdMap Int Level) :
    (book.set_levels side levels).set_levels side levels' = book.set_levels side levels' := by cases side <;> rfl
@[simp] theorem put_level_put_level (level level' : Level) :
    put_level side price level' (put_level side price level book) = put_level side price level' book := by
  simp [put_level]

theorem level_put_level (level : Level) (s : Side) (p : Int) :
    (put_level side price level book).level s p =
      if s = side ∧ p = price then some level else book.level s p := by
  unfold Book.level put_level
  by_cases same : s = side
  · subst same
    rw [levels_set_levels,OrdMap.get?_insert]
    by_cases at_price : p = price <;> simp [at_price]
  · rw [levels_set_levels_of_ne _ _ _ same,if_neg (fun h => same h.1)]

theorem level_drop_level (s : Side) (p : Int) :
    (book.set_levels side ((book.levels side).erase price)).level s p =
      if s = side ∧ p = price then none else book.level s p := by
  unfold Book.level
  by_cases same : s = side
  · subst same
    rw [levels_set_levels,OrdMap.get?_erase]
    by_cases at_price : p = price <;> simp [at_price]
  · rw [levels_set_levels_of_ne _ _ _ same,if_neg (fun h => same h.1)]

theorem level_congr_orders (orders : OrdMap OrderId BookOrder) (next : Nat) (s : Side) (p : Int) :
    ({ book with orders, next_priority := next } : Book).level s p = book.level s p := by cases s <;> rfl

end Writes

section Insert
variable {order : BookOrder} {book book' : Book} {x : Unit}

structure Inserted (order : BookOrder) (book book' : Book) : Prop where
  positive : 0 < order.visible ∧ order.visible ≤ order.remaining ∧ 0 < order.price
  absent : book.orders.get? order.order_id = none
  fresh : (book.entry order.side order.price).queue.get? order.priority = none
  fits : (book.entry order.side order.price).total + order.remaining ≤ 9223372036854775807
  orders : book'.orders = book.orders.insert order.order_id order
  next : book'.next_priority = book.next_priority
  level : ∀ s p, book'.level s p = if s = order.side ∧ p = order.price then
    some ⟨(book.entry order.side order.price).queue.insert order.priority order.order_id,
      (book.entry order.side order.price).visible + order.visible,
      (book.entry order.side order.price).total + order.remaining⟩
    else book.level s p

theorem insert_ok (ran : (insert order).run book = .ok x book') : Inserted order book book' := by
  simp only [insert,returned,Bool.not_eq_true,OrdMap.contains_eq_false_iff] at ran
  obtain ⟨valid,absent,fresh,visible,seen,total,summed,rfl⟩ := ran
  have visible_eq := to_i64_some seen
  have total_eq := to_i64_some summed
  refine ⟨by omega,absent,fresh,(to_i64_fits summed).2,by simp [put_level],by simp [put_level],fun s p => ?_⟩
  rw [level_congr_orders]
  simp only [put_level_put_level,level_put_level,visible_eq,total_eq]
  rfl

theorem Inserted.view (done : Inserted order book book') :
    book'.view = book.view.set order.order_id (some ⟨order.side,order.price,order.remaining⟩) := by
  apply OrdMap.ext_get?
  intro id
  rw [get?_view,OrdMap.get?_set,get?_view,done.orders,OrdMap.get?_insert]
  split_ifs <;> rfl

theorem Inserted.indexed (done : Inserted order book book') (indexed : book.Indexed)
    (priority : order.priority < book.next_priority) : book'.Indexed := by
  obtain ⟨visible,hidden,price⟩ := done.positive
  refine ⟨fun {id other} found => ?_,fun side price => ?_,fun {side price level} found => ?_⟩
  · rw [done.orders] at found
    rw [done.next]
    exact OrdMap.of_insert found ⟨rfl,price,visible,hidden,priority⟩ fun _ _ => indexed.order
  · rw [done.orders]
    unfold entry
    rw [done.level]
    split_ifs with here
    · obtain ⟨rfl,rfl⟩ := here
      exact (indexed.holds _ _).insert_here done.absent done.fresh ⟨rfl,rfl⟩ done.fits
    · exact (indexed.holds _ _).insert_elsewhere done.absent fun at_level => here ⟨at_level.1.symm,at_level.2.symm⟩
  · rw [done.level] at found
    split_ifs at found with here
    · cases found
      exact Option.ne_none_iff_exists'.mp fun none =>
        absurd (OrdMap.first?_eq_none_iff.mp none order.priority) (by simp)
    · exact indexed.nonempty found

theorem Inserted.sound (done : Inserted order book book') (sound : book.Sound) (shows : Shows book.next_priority order)
    (priority : order.priority < book.next_priority) : book'.Sound := by
  refine ⟨done.indexed sound.toIndexed priority,fun found => ?_⟩
  rw [done.orders] at found
  rw [done.next]
  exact OrdMap.of_insert found shows fun _ _ => sound.shows

end Insert

section Remove
variable {id : OrderId} {book book' : Book} {x : Unit}

structure Removed (order : BookOrder) (id : OrderId) (book book' : Book) : Prop where
  found : book.orders.get? id = some order
  orders : book'.orders = book.orders.erase id
  next : book'.next_priority = book.next_priority
  level : ∀ s p, book'.level s p = if s = order.side ∧ p = order.price then
    if ((book.entry order.side order.price).queue.erase order.priority).isEmpty then none
    else some ⟨(book.entry order.side order.price).queue.erase order.priority,
      (book.entry order.side order.price).visible - order.visible,
      (book.entry order.side order.price).total - order.remaining⟩
    else book.level s p

theorem drop_level_ok {side : Side} {price : Int} {queue : OrdMap Nat OrderId}
    (ran : (drop_level side price queue).run book = .ok x book') :
    book' = if queue.isEmpty then book.set_levels side ((book.levels side).erase price) else book := by
  unfold drop_level at ran
  split_ifs at ran ⊢
  · exact (modify_eq_ok.mp ran).symm
  · exact (pure_eq_ok.mp ran).2.symm

private theorem entry_eq {side : Side} {price : Int} {level : Level} (here : (book.levels side).get? price = some level) :
    book.entry side price = level := by
  unfold entry Book.level
  rw [here]
  rfl

theorem remove_ok (ran : (remove id).run book = .ok x book') : ∃ order, Removed order id book book' := by
  simp only [remove,returned] at ran
  obtain ⟨order,found,level,here,visible,seen,total,summed,drops⟩ := ran
  rw [to_i64_some seen,to_i64_some summed] at drops
  simp only [put_level_put_level] at drops
  have drops := drop_level_ok drops
  refine ⟨order,found,?_,?_,fun s p => ?_⟩
  · rw [drops]; split_ifs <;> simp [put_level]
  · rw [drops]; split_ifs <;> simp [put_level]
  · rw [drops,entry_eq here]
    split_ifs with empty same same
    · rw [level_drop_level,if_pos same]
    · rw [level_drop_level,if_neg same,level_put_level,if_neg same,level_congr_orders]
    · rw [level_put_level,if_pos same]
    · rw [level_put_level,if_neg same,level_congr_orders]

variable {order : BookOrder}

/-- The displayed and the total quantity of a level, less one of its orders, stay in range. -/
private theorem Indexed.shrinks (indexed : book.Indexed) (found : book.orders.get? id = some order) :
    (∃ visible, to_i64 ((book.entry order.side order.price).visible - order.visible) = some visible) ∧
    ∃ total, to_i64 ((book.entry order.side order.price).total - order.remaining) = some total := by
  have level := indexed.holds order.side order.price
  have formed := indexed.order found
  have rest := level.erase_here found ⟨rfl,rfl⟩ (formed.visible.trans_le formed.hidden)
  have other {j : OrderId} {o : BookOrder} (there : (book.orders.erase id).get? j = some o) : 0 < o.visible ∧
      o.visible ≤ o.remaining := by
    have formed := indexed.order (OrdMap.of_erase there)
    exact ⟨formed.visible,formed.hidden⟩
  have nonneg : 0 ≤ level_sum (book.orders.erase id) order.side order.price BookOrder.visible :=
    OrdMap.sum_nonneg fun j o there => by
      have := other there
      split_ifs <;> omega
  have hidden : level_sum (book.orders.erase id) order.side order.price BookOrder.visible ≤
      level_sum (book.orders.erase id) order.side order.price BookOrder.remaining :=
    OrdMap.sum_le_sum fun j o there => by
      have := other there
      split_ifs <;> omega
  have visible_eq := rest.visible
  have total_eq := rest.total
  have fits := rest.fits
  simp only at visible_eq total_eq fits
  exact ⟨⟨_,to_i64_of_fits (by omega) (by omega)⟩,⟨_,to_i64_of_fits (by omega) (by omega)⟩⟩

theorem Indexed.remove_total (indexed : book.Indexed) (found : book.orders.get? id = some order) :
    ∃ book', (remove id).run book = .ok () book' := by
  cases ran : (remove id).run book with
  | ok x book' => exact ⟨book',rfl⟩
  | error e book' =>
    exfalso
    simp only [remove,drop_level,returned,raised] at ran
    obtain ⟨missing,_⟩ | ⟨order',found',⟨missing,_⟩ | ⟨level,here,⟨large,_⟩ | ⟨_,_,⟨large,_⟩ | ⟨_,_,wrong⟩⟩⟩⟩ := ran
    · rw [found] at missing; cases missing
    · -- The level of a resting order is there: its queue holds the order.
      have queued := ((indexed.holds order'.side order'.price).queued order'.priority id).mpr ⟨order',found',⟨rfl,rfl⟩,rfl⟩
      unfold entry Book.level at queued
      rw [missing] at queued
      cases queued
    · obtain ⟨⟨visible,fits⟩,_⟩ := indexed.shrinks found'
      rw [entry_eq here,large] at fits
      cases fits
    · obtain ⟨_,⟨total,fits⟩⟩ := indexed.shrinks found'
      rw [entry_eq here,large] at fits
      cases fits
    · split_ifs at wrong <;> cases wrong

theorem Removed.view (done : Removed order id book book') :
    book'.view = book.view.set id none := by
  apply OrdMap.ext_get?
  intro j
  rw [get?_view,OrdMap.get?_set,get?_view,done.orders,OrdMap.get?_erase]
  split_ifs <;> rfl

theorem Removed.indexed (done : Removed order id book book') (indexed : book.Indexed) : book'.Indexed := by
  have shrunk (s : Side) (p : Int) (here : s = order.side ∧ p = order.price) : LevelSound (book.orders.erase id) s p
      ⟨(book.entry order.side order.price).queue.erase order.priority,
        (book.entry order.side order.price).visible - order.visible,
        (book.entry order.side order.price).total - order.remaining⟩ := by
    obtain ⟨rfl,rfl⟩ := here
    have formed := indexed.order done.found
    exact (indexed.holds _ _).erase_here done.found ⟨rfl,rfl⟩ (formed.visible.trans_le formed.hidden)
  refine ⟨fun {j other} found => ?_,fun side price => ?_,fun {side price level} found => ?_⟩
  · rw [done.orders] at found
    rw [done.next]
    exact indexed.order (OrdMap.of_erase found)
  · rw [done.orders]
    unfold entry
    rw [done.level]
    split_ifs with here empty
    · -- An emptied level has no orders left, so its totals are zero.
      have rest := shrunk _ _ here
      have none (j : OrderId) (other : BookOrder) (found : (book.orders.erase id).get? j = some other) :
          ¬ BookOrder.At side price other := by
        intro at_level
        have queued := (rest.queued other.priority j).mpr ⟨other,found,at_level,rfl⟩
        rw [OrdMap.isEmpty_iff.mp empty] at queued
        cases queued
      refine ⟨fun priority j => ⟨fun queued => (by cases queued),?_⟩,?_,?_,by simp⟩
      · rintro ⟨other,found,at_level,_⟩; exact absurd at_level (none j other found)
      · exact (OrdMap.sum_eq_zero fun j other found => if_neg (none j other found)).symm
      · exact (OrdMap.sum_eq_zero fun j other found => if_neg (none j other found)).symm
    · exact shrunk _ _ here
    · exact (indexed.holds _ _).erase_elsewhere done.found fun at_level => here ⟨at_level.1.symm,at_level.2.symm⟩
  · rw [done.level] at found
    split_ifs at found with here empty
    · cases found
      exact Option.ne_none_iff_exists'.mp fun none => empty (OrdMap.isEmpty_iff.mpr (OrdMap.first?_eq_none_iff.mp none))
    · exact indexed.nonempty found

theorem Removed.sound (done : Removed order id book book') (sound : book.Sound) : book'.Sound := by
  refine ⟨done.indexed sound.toIndexed,fun found => ?_⟩
  rw [done.orders] at found
  rw [done.next]
  exact sound.shows (OrdMap.of_erase found)

theorem Removed.fresh (done : Removed order id book book') :
    (book'.entry order.side order.price).queue.get? order.priority = none := by
  unfold entry
  rw [done.level,if_pos ⟨rfl,rfl⟩]
  split_ifs
  · rfl
  · exact OrdMap.get?_erase_self ..

end Remove

section Priority
variable {book book' : Book} {priority : Nat}

theorem take_priority_ok (ran : take_priority.run book = .ok priority book') :
    priority = book.next_priority ∧ book' = { book with next_priority := book.next_priority + 1 } := by
  simp only [take_priority,returned] at ran
  obtain ⟨next,fits,rfl,rfl⟩ := ran
  exact ⟨rfl,by rw [to_u64_some fits]⟩

theorem take_priority_error {e : BookError} (failed : take_priority.run book = .error e book') :
    e = .Overflow ∧ 18446744073709551615 ≤ book.next_priority := by
  simp only [take_priority,returned,raised] at failed
  obtain ⟨high,rfl,_⟩ := failed
  exact ⟨rfl,not_lt.mp fun room => Option.some_ne_none _ ((if_pos room).symm.trans high)⟩

theorem Sound.bump (sound : book.Sound) : ({ book with next_priority := book.next_priority + 1 } : Book).Sound := by
  refine ⟨⟨fun found => ?_,fun side price => ?_,fun {side price level} found => ?_⟩,fun found peak member => ?_⟩
  · obtain ⟨a,b,c,d,e⟩ := sound.order found
    exact ⟨a,b,c,d,by simp only; omega⟩
  · have := sound.holds side price
    cases side <;> exact this
  · exact @Indexed.nonempty _ sound.toIndexed side price level (by cases side <;> exact found)
  · have := sound.shows found peak member
    simp only
    omega

/-- In a sound book no level queues an order at the next priority. -/
theorem Sound.fresh_next (sound : book.Sound) (side : Side) (price : Int) :
    (book.entry side price).queue.get? book.next_priority = none := by
  cases queued : (book.entry side price).queue.get? book.next_priority with
  | none => rfl
  | some id =>
    obtain ⟨order,found,_,same⟩ := ((sound.holds side price).queued _ _).mp queued
    have := (sound.order found).priority
    omega

end Priority

end Book

end Bunting
