import Bunting.Priorities

/-!
What matching does to a book, in terms of its view. Every execution takes a
positive quantity from one resting order, at that order's price. Nothing but an
overflow makes matching, resting or the auction fail on a sound book.
-/

namespace Bunting
open Stateful

namespace Book

/-- What rests of an order once `quantity` is taken from it. -/
def Resting.taken (quantity : Int) (order : Resting) : Option Resting :=
  if order.remaining = quantity then none else some { order with remaining := order.remaining - quantity }

/-- `quantity` was taken from an order, and the book is sound as before. -/
structure Taken (order : BookOrder) (quantity : Int) (book book' : Book) : Prop where
  sound : book'.Sound
  found : book.orders.get? order.order_id = some order
  positive : 0 < quantity
  enough : quantity ≤ order.remaining
  orders : book'.orders = book.orders.set order.order_id (order.after book.next_priority quantity)
  next : book.next_priority ≤ book'.next_priority ∧ book'.next_priority ≤ book.next_priority + 1

section View
variable {book book' : Book} {id : OrderId} {order : Resting}

theorem view_of_order {order : BookOrder} (found : book.orders.get? id = some order) :
    book.view.get? id = some ⟨order.side,order.price,order.remaining⟩ := by
  rw [get?_view,found]
  rfl

theorem order_of_view (found : book.view.get? id = some order) :
    ∃ o, book.orders.get? id = some o ∧ order = ⟨o.side,o.price,o.remaining⟩ := by
  rw [get?_view] at found
  obtain ⟨o,there,rfl⟩ := Option.map_eq_some_iff.mp found
  exact ⟨o,there,rfl⟩

theorem Sound.view_positive (sound : book.Sound) (found : book.view.get? id = some order) :
    0 < order.remaining ∧ 0 < order.price := by
  obtain ⟨o,there,rfl⟩ := order_of_view found
  have formed := sound.order there
  exact ⟨formed.visible.trans_le formed.hidden,formed.price⟩

section Taken
variable {order : BookOrder} {quantity : Int} (taken : Taken order quantity book book')
include taken

theorem Taken.view : book'.view = book.view.set order.order_id (Resting.taken quantity ⟨order.side,order.price,order.remaining⟩) := by
  apply OrdMap.ext_get?
  intro other
  rw [get?_view,taken.orders,OrdMap.get?_set,OrdMap.get?_set,get?_view]
  split_ifs
  · have := taken.enough
    unfold BookOrder.after Resting.taken
    dsimp only
    split_ifs <;> first | omega | rfl
  · rfl

theorem Taken.others {other : OrderId} (ne : other ≠ order.order_id) : book'.orders.get? other = book.orders.get? other := by
  rw [taken.orders,OrdMap.get?_set_of_ne _ _ ne]

theorem Taken.advances (sound : book.Sound) : Advances book book' := by
  have orders := taken.orders
  cases after : order.after book.next_priority quantity with
  | none =>
    rw [after] at orders
    exact .erase orders taken.next.1
  | some left =>
    rw [after] at orders
    obtain ⟨continues,peak⟩ := after_continues taken.positive after
    exact .put sound taken.found orders taken.next.1 continues peak

end Taken

end View

section Best
variable {book : Book} {side : Side} {price : Int} {level : Level}

theorem best_some (best : book.best side = some price) : ∃ level, book.level side price = some level := by
  cases side with
  | Buy =>
    obtain ⟨e,last,rfl⟩ := Option.map_eq_some_iff.mp best
    exact ⟨e.2,OrdMap.get?_of_last? last⟩
  | Sell =>
    obtain ⟨e,first,rfl⟩ := Option.map_eq_some_iff.mp best
    exact ⟨e.2,OrdMap.get?_of_first? first⟩

theorem exists_best (there : book.level side price = some level) : ∃ best, book.best side = some best := by
  refine Option.ne_none_iff_exists'.mp fun none => Option.some_ne_none _ (there.symm.trans ?_)
  cases side with
  | Buy => exact OrdMap.last?_eq_none_iff.mp (Option.map_eq_none_iff.mp none) price
  | Sell => exact OrdMap.first?_eq_none_iff.mp (Option.map_eq_none_iff.mp none) price

/-- An aggressor that reaches any level reaches the best. -/
theorem reaches_best {taker : Side} {limit : Option Int} {other : Int} (best : book.best taker.opposite = some price)
    (found : book.level taker.opposite other = some level)
    (reach : reaches taker limit other = true) : reaches taker limit price = true := by
  cases limit with
  | none => rfl
  | some limit =>
    cases taker with
    | Buy =>
      obtain ⟨e,first,rfl⟩ := Option.map_eq_some_iff.mp best
      have := OrdMap.first?_le first found
      simp only [reaches,crosses,Option.all_some,decide_eq_true_eq] at reach ⊢
      omega
    | Sell =>
      obtain ⟨e,last,rfl⟩ := Option.map_eq_some_iff.mp best
      have := OrdMap.le_last? last found
      simp only [reaches,crosses,Option.all_some,decide_eq_true_eq] at reach ⊢
      omega

/-- The head of a level of a sound book is an order of that level. -/
theorem Indexed.head (indexed : book.Indexed) {e : Nat × OrderId} (found : book.level side price = some level)
    (first : level.queue.first? = some e) :
    ∃ order, book.orders.get? e.2 = some order ∧ BookOrder.At side price order ∧ order.priority = e.1 := by
  have queued := (indexed.holds side price).queued e.1 e.2
  rw [entry,found] at queued
  exact queued.mp (OrdMap.get?_of_first? first)

theorem Indexed.has_level (indexed : book.Indexed) {id : OrderId} {order : Resting} (found : book.view.get? id = some order) :
    ∃ level, book.level order.side order.price = some level := by
  obtain ⟨o,there,rfl⟩ := order_of_view found
  have queued := ((indexed.holds o.side o.price).queued o.priority id).mpr ⟨o,there,⟨rfl,rfl⟩,rfl⟩
  unfold entry at queued
  cases there : book.level o.side o.price with
  | none => rw [there] at queued; cases queued
  | some level => exact ⟨level,rfl⟩

end Best

/-! ### Putting what remains of an order back -/

variable {e : BookError} {quantity : Int}

section Back
variable {order : BookOrder} {id : OrderId} {book between book' : Book} {x : Unit} {left : Int}

theorem Sound.entry_bounds (sound : book.Sound) (side : Side) (price : Int) :
    0 ≤ (book.entry side price).visible ∧ (book.entry side price).visible ≤ (book.entry side price).total := by
  have level := sound.holds side price
  rw [level.visible,level.total]
  refine ⟨OrdMap.sum_nonneg fun _ order found => ?_,OrdMap.sum_le_sum fun _ order found => ?_⟩
  · have := (sound.order found).visible
    split_ifs <;> omega
  · have := (sound.order found).hidden
    split_ifs <;> omega

/-- Inserting an order that is well formed and new to the book fails only where it does not fit its level. -/
theorem insert_error (sound : book.Sound) (failed : (insert order).run book = .error e book')
    (positive : 0 < order.visible ∧ order.visible ≤ order.remaining ∧ 0 < order.price)
    (absent : book.orders.get? order.order_id = none)
    (fresh : (book.entry order.side order.price).queue.get? order.priority = none) :
    e = .Overflow ∧ 9223372036854775807 < (book.entry order.side order.price).total + order.remaining := by
  obtain ⟨low,hidden⟩ := sound.entry_bounds order.side order.price
  unfold entry Book.level at low hidden fresh ⊢
  simp only [insert,returned,raised] at failed
  obtain ⟨bad,_⟩ | ⟨_,⟨found,_⟩ | ⟨_,⟨found,_⟩ | ⟨_,⟨high,rfl,_⟩ | ⟨_,_,high,rfl,_⟩⟩⟩⟩ := failed
  · omega
  · rw [OrdMap.contains,absent] at found; cases found
  · rw [OrdMap.contains,fresh] at found; cases found
  · have := to_i64_none high (by omega)
    exact ⟨rfl,by omega⟩
  · exact ⟨rfl,to_i64_none high (by omega)⟩

theorem Indexed.order_fits (indexed : book.Indexed) (found : book.orders.get? id = some order) :
    order.remaining ≤ 9223372036854775807 := by
  have level := indexed.holds order.side order.price
  have here := OrdMap.le_sum (f := fun _ other => if BookOrder.At order.side order.price other then other.remaining else 0)
    (fun _ other found => by
      have formed := indexed.order found
      have := formed.visible
      have := formed.hidden
      split_ifs <;> omega) found
  have fits := level.fits
  rw [level.total] at fits
  rw [if_pos ⟨rfl,rfl⟩] at here
  exact here.trans fits

/-- A level has room for what is left of an order removed from it. -/
theorem Removed.fits (removed : Removed order id book between) (sound : book.Sound) :
    (between.entry order.side order.price).total + order.remaining ≤ 9223372036854775807 := by
  have before := sound.holds order.side order.price
  have after := (removed.sound sound).holds order.side order.price
  have fits := before.fits
  rw [before.total] at fits
  rw [after.total,removed.orders,level_sum_erase removed.found,if_pos ⟨rfl,rfl⟩]
  omega

theorem refresh_ok (ran : (refresh order).run book = .ok x book') (sound : book.Sound)
    (display : ∀ peak ∈ order.display, 0 < peak ∨ 18446744073709551615 ≤ book.next_priority) :
    book'.Sound ∧ book'.orders = book.orders.insert order.order_id
      { order with visible := min (order.display.getD order.remaining) order.remaining, priority := book.next_priority } ∧
    book'.next_priority = book.next_priority + 1 := by
  simp only [refresh,returned] at ran
  obtain ⟨priority,bumped,takes,inserts⟩ := ran
  obtain ⟨rfl,rfl⟩ := take_priority_ok takes
  have done := insert_ok inserts
  refine ⟨done.sound sound.bump (fun peak member => ?_) (by simp),done.orders,done.next⟩
  have := display peak member
  simp only
  omega

/-- An order is refreshed unless the priorities have run out, where it fits its level. -/
theorem refresh_error (failed : (refresh order).run book = .error e book') (sound : book.Sound)
    (absent : book.orders.get? order.order_id = none)
    (display : ∀ peak ∈ order.display, 0 < peak ∨ 18446744073709551615 ≤ book.next_priority)
    (positive : 0 < order.remaining ∧ 0 < order.price)
    (fits : (book.entry order.side order.price).total + order.remaining ≤ 9223372036854775807) :
    e = .Overflow ∧ 18446744073709551615 ≤ book.next_priority := by
  obtain overflow | ⟨priority,bumped,takes,inserts⟩ := bind_eq_error.mp failed
  · exact take_priority_error overflow
  · obtain ⟨rfl,rfl⟩ := take_priority_ok takes
    have room : ¬ 18446744073709551615 ≤ book.next_priority := fun full => by
      simp only [take_priority,to_u64,returned] at takes
      obtain ⟨_,fits,_⟩ := takes
      split_ifs at fits
      omega
    have same : ({ book with next_priority := book.next_priority + 1 } : Book).entry order.side order.price =
        book.entry order.side order.price := by
      unfold entry
      rw [level_congr_orders]
    have shown : 0 < min (order.display.getD order.remaining) order.remaining := by
      cases peak : order.display with
      | none => simpa using positive.1
      | some peak' => exact lt_min ((display peak' peak).resolve_right room) positive.1
    have large := (insert_error sound.bump inserts ⟨shown,min_le_right _ _,positive.2⟩ absent
      (by rw [same]; exact sound.fresh_next _ _)).2
    simp only [same] at large
    omega

/-- What is left of a removed order goes back to its level, at the head or refreshed at the back. -/
theorem keep_resting_ok (sound : book.Sound) (removed : Removed order order.order_id book between)
    (positive : 0 < quantity) (left_eq : left = order.remaining - quantity) (nonneg : 0 ≤ left)
    (ran : (keep_resting order quantity left).run between = .ok x book') : Taken order quantity book book' := by
  have clean := removed.sound sound
  have formed := sound.order removed.found
  have back {book' : Book} (sound' : book'.Sound)
      (orders : book'.orders = between.orders.set order.order_id (order.after book.next_priority quantity))
      (next : between.next_priority ≤ book'.next_priority ∧ book'.next_priority ≤ between.next_priority + 1) :
      Taken order quantity book book' := by
    refine ⟨sound',removed.found,positive,by omega,?_,by rw [← removed.next]; exact next⟩
    rw [orders,removed.orders]
    exact OrdMap.set_set _ _ none _
  unfold keep_resting at ran
  unfold BookOrder.after at back
  dsimp only at back
  rw [← left_eq] at back
  split_ifs at ran with more used
  · obtain ⟨sound',orders,next⟩ := refresh_ok ran clean fun peak member => by
      have := sound.shows removed.found peak member
      rw [removed.next]
      omega
    refine back sound' ?_ (by omega)
    rw [if_neg (by omega),if_neg (by omega),← removed.next]
    exact orders
  · simp only [returned] at ran
    obtain ⟨visible,shown,inserts⟩ := ran
    have done := insert_ok inserts
    have shows : Shows between.next_priority { order with remaining := left, visible } := fun peak member => by
      have := sound.shows removed.found peak member
      have := to_i64_some shown
      rw [removed.next]
      simp only
      omega
    refine back (done.sound clean shows (by rw [removed.next]; exact formed.priority)) ?_ (by rw [done.next]; omega)
    rw [if_neg (by omega),if_pos (by omega),← to_i64_some shown]
    exact done.orders
  · cases (pure_eq_ok.mp ran).2
    refine back clean ?_ (by omega)
    rw [if_pos (by omega),removed.orders]
    exact (OrdMap.set_set _ _ none none).symm

/-- What is left of an order goes back unless the priorities have run out. -/
theorem keep_resting_error (sound : book.Sound) (removed : Removed order order.order_id book between)
    (positive : 0 < quantity) (left_eq : left = order.remaining - quantity)
    (failed : (keep_resting order quantity left).run between = .error e book') :
    e = .Overflow ∧ 18446744073709551615 ≤ book.next_priority := by
  have formed := sound.order removed.found
  have bound := sound.order_fits removed.found
  have hidden := formed.hidden
  have clean := removed.sound sound
  have absent : between.orders.get? order.order_id = none := by rw [removed.orders,OrdMap.get?_erase_self]
  have room := removed.fits sound
  unfold keep_resting at failed
  split_ifs at failed with more used
  · rw [← removed.next]
    refine refresh_error failed clean absent (fun peak member => ?_) ⟨more,formed.price⟩ (by simp only; omega)
    have := sound.shows removed.found peak member
    rw [removed.next]
    omega
  · simp only [returned,raised] at failed
    obtain ⟨high,rfl,_⟩ | ⟨visible,fits,stuck⟩ := failed
    · have := to_i64_none high (by omega)
      omega
    · have := to_i64_some fits
      have large := (insert_error clean stuck ⟨by simp only; omega,by simp only; omega,formed.price⟩ absent removed.fresh).2
      simp only at large
      omega
  · cases failed

/-- Continuous matching puts a maker back as the auction does. -/
theorem put_back_eq {visible : Int} (fits : to_i64 (order.visible - quantity) = some visible)
    (shown : quantity ≤ order.visible) :
    (put_back { order with remaining := left, visible }).run book = (keep_resting order quantity left).run book := by
  have visible_eq := to_i64_some fits
  unfold put_back keep_resting
  dsimp only
  split_ifs <;> first | omega | skip
  · rfl
  · rw [EStateM.run_bind,fits,run_orElse_some]
  · rfl

end Back

/-! ### Continuous matching -/

/-- An execution, match by match. -/
inductive Executes (taker : Side) (limit : Option Int) : Int → Book → List Match → Int → Book → Prop
  | stop {remaining book}
      (ends : 0 < remaining → ∀ price, book.best taker.opposite = some price → reaches taker limit price = false) :
      Executes taker limit remaining book [] remaining book
  | head {remaining left' left price m rest book between book'} (best : book.best taker.opposite = some price)
      (reach : reaches taker limit price = true)
      (heads : (execute_head taker.opposite price remaining).run book = .ok (m,left') between)
      (more : Executes taker limit left' between rest left book') : Executes taker limit remaining book (m :: rest) left book'

section Execute
variable {taker maker_side : Side} {limit : Option Int} {price remaining left : Int} {m : Match} {book book' : Book}
  {level : Level}

theorem head_ok (sound : book.Sound) {order : BookOrder} (ran : book.head maker_side price = .ok order) :
    book.orders.get? order.order_id = some order ∧ order.side = maker_side ∧ order.price = price := by
  obtain ⟨level,here,rest⟩ := Option.bind_eq_some_iff.mp (except_orElse_eq_ok.mp ran)
  obtain ⟨e,first,found⟩ := Option.bind_eq_some_iff.mp rest
  obtain ⟨order',found',⟨side_eq,price_eq⟩,_⟩ := sound.head here first
  cases found.symm.trans found'
  have key := (sound.order found).order_id
  exact ⟨by rw [key]; exact found,side_eq,price_eq⟩

theorem head_total (sound : book.Sound) (here : book.level maker_side price = some level) :
    ∃ order, book.head maker_side price = .ok order := by
  obtain ⟨e,first⟩ := sound.nonempty here
  obtain ⟨order,found,_⟩ := sound.head here first
  refine ⟨order,except_orElse_eq_ok.mpr ?_⟩
  rw [Option.bind_eq_some_iff]
  exact ⟨level,here,by rw [first]; exact found⟩

/-- One execution trades with the first order of the level, and no more than its slice. -/
theorem execute_head_ok (sound : book.Sound)
    (ran : (execute_head maker_side price remaining).run book = .ok (m,left) book') :
    ∃ order, book.head maker_side price = .ok order ∧ Taken order m.quantity book book' ∧ m.maker = order.order_id ∧
      m.price = price ∧ m.quantity = min remaining order.visible ∧ m.maker_remaining = order.remaining - m.quantity ∧
      left = remaining - m.quantity := by
  simp only [execute_head,returned,Prod.mk.injEq] at ran
  obtain ⟨id,queued,maker,found,some_fill,left',fits,rest,fits',visible,fits'',between,removes,_,puts,⟨rfl,rfl⟩,rfl⟩ := ran
  obtain ⟨level,here,first⟩ := Option.bind_eq_some_iff.mp queued
  obtain ⟨e,head,rfl⟩ := Option.map_eq_some_iff.mp first
  obtain ⟨maker',removed⟩ := remove_ok removes
  cases found.symm.trans removed.found
  have formed := sound.order found
  have hidden := formed.hidden
  have rest_eq := to_i64_some fits'
  rw [put_back_eq fits'' (min_le_right _ _)] at puts
  rw [← formed.order_id] at removed
  refine ⟨maker,?_,keep_resting_ok sound removed (not_le.mp some_fill) rest_eq (by omega) puts,formed.order_id.symm,rfl,rfl,rest_eq,
    to_i64_some fits⟩
  simp only [Book.head,except_orElse_eq_ok]
  exact Option.bind_eq_some_iff.mpr ⟨level,here,Option.bind_eq_some_iff.mpr ⟨e,head,found⟩⟩

theorem execute_head_error (sound : book.Sound)
    (here : book.level maker_side price = some level) (positive : 0 < remaining)
    (failed : (execute_head maker_side price remaining).run book = .error e book') :
    e = .Overflow ∧ (remaining ≤ 9223372036854775807 → 18446744073709551615 ≤ book.next_priority) := by
  simp only [execute_head,returned,raised] at failed
  obtain ⟨missing,_⟩ | ⟨id,queued,⟨missing,_⟩ | ⟨maker,found,⟨empty,_⟩ | ⟨some_fill,⟨high,rfl,_⟩ | ⟨_,_,⟨high,rfl,_⟩ |
    ⟨_,fits,⟨high,rfl,_⟩ | ⟨_,fits',stuck | ⟨_,removes,stuck⟩⟩⟩⟩⟩⟩⟩ := failed
  · obtain ⟨first,there⟩ := sound.nonempty here
    unfold Book.level at here
    rw [here] at missing
    simp [there] at missing
  · obtain ⟨level,here,first⟩ := Option.bind_eq_some_iff.mp queued
    obtain ⟨e,head,rfl⟩ := Option.map_eq_some_iff.mp first
    obtain ⟨order,found,_⟩ := sound.head here head
    rw [found] at missing
    cases missing
  · have := (sound.order found).visible
    omega
  · refine ⟨rfl,fun small => ?_⟩
    rw [to_i64_of_fits (by omega) (by omega)] at high
    cases high
  · have := sound.order_fits found
    have := (sound.order found).hidden
    rw [to_i64_of_fits (by omega) (by omega)] at high
    cases high
  · have := sound.order_fits found
    have := (sound.order found).hidden
    rw [to_i64_of_fits (by omega) (by omega)] at high
    cases high
  · obtain ⟨_,removes⟩ := sound.remove_total found
    rw [removes] at stuck
    cases stuck
  · obtain ⟨maker',removed⟩ := remove_ok removes
    cases found.symm.trans removed.found
    rw [put_back_eq fits' (min_le_right _ _)] at stuck
    rw [← (sound.order found).order_id] at removed
    obtain ⟨rfl,spent⟩ := keep_resting_error sound removed (by omega) (to_i64_some fits) stuck
    exact ⟨rfl,fun _ => spent⟩

/-- A list of executions on a view: each takes its quantity from a resting
    order on the other side that the aggressor reaches, at that order's price. -/
inductive Matched (taker : Side) (limit : Option Int) :
    OrdMap OrderId Resting → List Match → OrdMap OrderId Resting → Prop
  | nil {view} : Matched taker limit view [] view
  | cons {view view' m rest order} (found : view.get? m.maker = some order) (side : order.side = taker.opposite)
      (price : order.price = m.price) (reach : reaches taker limit m.price = true) (positive : 0 < m.quantity)
      (enough : m.quantity ≤ order.remaining) (left : m.maker_remaining = order.remaining - m.quantity)
      (more : Matched taker limit (view.set m.maker (order.taken m.quantity)) rest view') :
      Matched taker limit view (m :: rest) view'

def filled (found : List Match) : Int := (found.map Match.quantity).sum

/-- Nothing that rests on the other side can still be reached. -/
def Exhausted (taker : Side) (limit : Option Int) (book : Book) : Prop :=
  ∀ id order, book.view.get? id = some order → order.side = taker.opposite → reaches taker limit order.price = false

/-- What a run of the loop does, from any state of it. -/
structure Executed (taker : Side) (limit : Option Int) (quantity left : Int) (found : List Match) (book book' : Book) :
    Prop where
  sound : book'.Sound
  matched : Matched taker limit book.view found book'.view
  remains : left = quantity - filled found
  nonneg : 0 ≤ left
  exhausted : 0 < left → Exhausted taker limit book'
  advances : Advances book book'

variable {found : List Match}

theorem execute_head_less (ran : (execute_head maker_side price remaining).run book = .ok (m,left) book') : left < remaining := by
  simp only [execute_head,returned,Prod.mk.injEq] at ran
  obtain ⟨_,_,maker,_,some_fill,_,fits,_,_,_,_,_,_,_,_,⟨_,rfl⟩,_⟩ := ran
  have := to_i64_some fits
  omega

/-- The loop stops once nothing is wanted or the best price is out of reach. -/
theorem execute_loop_run {all : List Match} {fuel : Nat} (enough : remaining ≤ fuel)
    (ran : (execute_loop taker limit fuel remaining found).run book = .ok (all,left) book') :
    ∃ more, all = found ++ more ∧ Executes taker limit remaining book more left book' := by
  have stop {book book' : Book} {remaining : Int} {found : List Match}
      (ran : (pure (found,remaining) : EStateM BookError Book _).run book = .ok (all,left) book')
      (ends : 0 < remaining → ∀ price, book.best taker.opposite = some price → reaches taker limit price = false) :
      ∃ more, all = found ++ more ∧ Executes taker limit remaining book more left book' := by
    obtain ⟨same,rfl⟩ := pure_eq_ok.mp ran
    cases same
    exact ⟨[],by simp,.stop ends⟩
  induction fuel generalizing book remaining found with
  | zero => exact stop ran (by omega)
  | succ fuel ih =>
    unfold execute_loop at ran
    split_ifs at ran with spent
    · exact stop ran (by omega)
    · simp only [returned] at ran
      split at ran
      · rename_i none
        exact stop ran fun _ price best => by rw [none] at best; cases best
      · rename_i price best
        split_ifs at ran with reach
        · simp only [returned] at ran
          obtain ⟨⟨m,left'⟩,between,heads,rest⟩ := ran
          have less := execute_head_less heads
          obtain ⟨more,rfl,later⟩ := ih (by simp only; omega) rest
          exact ⟨m :: more,by simp,.head best reach heads later⟩
        · refine stop ran fun _ price' best' => ?_
          cases best.symm.trans best'
          simpa using reach

theorem execute_run (ran : (execute taker limit quantity).run book = .ok (found,left) book') :
    0 < quantity ∧ Executes taker limit quantity book found left book' := by
  simp only [execute,returned] at ran
  obtain ⟨positive,ran⟩ := ran
  obtain ⟨more,rfl,executes⟩ := execute_loop_run (by omega) ran
  exact ⟨by omega,executes⟩

theorem execute_ok (sound : book.Sound) (ran : (execute taker limit quantity).run book = .ok (found,left) book') :
    0 < quantity ∧ Executed taker limit quantity left found book book' := by
  obtain ⟨positive,executes⟩ := execute_run ran
  refine ⟨positive,?_⟩
  have nonneg := positive.le
  clear ran positive
  induction executes with
  | @stop remaining book ends =>
    refine ⟨sound,.nil,by simp [filled],nonneg,fun more id order rests side => ?_,.refl _⟩
    obtain ⟨level,there⟩ := sound.has_level rests
    rw [side] at there
    by_contra reached
    obtain ⟨price,best⟩ := exists_best there
    have := reaches_best best there (by simpa using reached)
    rw [ends more price best] at this
    cases this
  | @head remaining left' left price m rest book between book' best reach heads more ih =>
    obtain ⟨order,head,taken,maker,price_eq,fill,remains,left_eq⟩ := execute_head_ok sound heads
    obtain ⟨_,side,at_price⟩ := head_ok sound head
    have later := ih taken.sound (by omega)
    refine ⟨later.sound,?_,?_,later.nonneg,later.exhausted,(taken.advances sound).trans later.advances⟩
    · refine .cons (by rw [maker]; exact view_of_order taken.found) side (at_price.trans price_eq.symm)
        (by rw [price_eq]; exact reach) taken.positive taken.enough remains ?_
      rw [maker,← taken.view]
      exact later.matched
    · rw [later.remains,left_eq]
      simp only [filled,List.map_cons,List.sum_cons]
      omega

theorem execute_idle (ran : (execute taker limit quantity).run book = .ok ([],left) book') :
    book' = book := by
  cases (execute_run ran).2
  rfl

/-- Matching on a sound book fails only where the priorities run out. -/
theorem execute_loop_error {fuel : Nat} (sound : book.Sound)
    (failed : (execute_loop taker limit fuel remaining found).run book = .error e book') :
    e = .Overflow ∧ (remaining ≤ 9223372036854775807 → 18446744073709551615 < book.next_priority + remaining) := by
  induction fuel generalizing book remaining found with
  | zero => cases failed
  | succ fuel ih =>
    unfold execute_loop at failed
    split_ifs at failed with spent
    · cases failed
    · simp only [returned,raised] at failed
      split at failed
      · cases failed
      · rename_i best
        split_ifs at failed
        · obtain stuck | ⟨⟨m,left⟩,between,heads,later⟩ := bind_eq_error.mp failed
          · obtain ⟨level,here⟩ := best_some best
            obtain ⟨rfl,full⟩ := execute_head_error sound here (by omega) stuck
            refine ⟨rfl,fun small => ?_⟩
            have := full small
            omega
          · obtain ⟨order,_,taken,_,_,_,_,left_eq⟩ := execute_head_ok sound heads
            obtain ⟨rfl,full⟩ := ih taken.sound later
            have := taken.positive
            have := taken.next.2
            refine ⟨rfl,fun small => ?_⟩
            dsimp only at full
            have := full (by omega)
            omega
        · cases failed

theorem execute_overflow (sound : book.Sound) (positive : 0 < quantity)
    (failed : (execute taker limit quantity).run book = .error e book') :
    e = .Overflow ∧ (quantity ≤ 9223372036854775807 → 18446744073709551615 < book.next_priority + quantity) := by
  simp only [execute,returned,raised] at failed
  obtain ⟨bad,_⟩ | ⟨_,failed⟩ := failed
  · omega
  · exact execute_loop_error sound failed

theorem execute_error (sound : book.Sound) (positive : 0 < quantity)
    (failed : (execute taker limit quantity).run book = .error e book') : e = .Overflow :=
  (execute_overflow sound positive failed).1

end Execute

section Rest
variable {id : OrderId} {side : Side} {price quantity : Int} {display : Option Int} {book book' : Book} {x : Unit}

theorem rest_ok (sound : book.Sound) (ran : (rest id side price quantity display).run book = .ok x book') :
    book'.Sound ∧ 0 < quantity ∧ 0 < price ∧ (∀ peak ∈ display, 0 < peak ∧ peak ≤ quantity) ∧
    book.view.get? id = none ∧ book'.view = book.view.set id (some ⟨side,price,quantity⟩) := by
  simp only [rest,returned] at ran
  obtain ⟨valid,absent,priority,bumped,takes,inserts⟩ := ran
  obtain ⟨rfl,rfl⟩ := take_priority_ok takes
  have done := insert_ok inserts
  simp only [not_or,not_le] at valid
  have peaks (peak : Int) (member : peak ∈ display) : 0 < peak ∧ peak ≤ quantity := by
    have := valid.2.2
    rw [Option.mem_def.mp member] at this
    simp only [Option.any_some,decide_eq_true_eq] at this
    omega
  refine ⟨done.sound sound.bump (fun peak member => .inl (peaks peak member).1) (by simp),valid.1,valid.2.1,peaks,?_,done.view⟩
  rw [get?_view,done.absent]
  rfl

/-- Cancelling an order that rests returns it and takes it from the book. -/
theorem cancel_total {order : BookOrder} (sound : book.Sound) (found : book.orders.get? id = some order) :
    ∃ book', cancel id book = (some order,book') ∧ book'.Sound ∧ book'.view = book.view.set id none := by
  obtain ⟨book',removes⟩ := sound.remove_total found
  obtain ⟨order',removed⟩ := remove_ok removes
  refine ⟨book',?_,removed.sound sound,removed.view⟩
  unfold cancel
  rw [found]
  simp only [removes]

end Rest

/-! ### How much an aggressor takes -/

/-- What an aggressor can reach of one order. -/
def reachable (taker : Side) (limit : Option Int) (order : Resting) : Int :=
  if order.side = taker.opposite ∧ reaches taker limit order.price = true then order.remaining else 0

/-- What an aggressor can reach of a book. -/
def reach (taker : Side) (limit : Option Int) (view : OrdMap OrderId Resting) : Int :=
  view.sum (fun _ order => reachable taker limit order)

section Reach
variable {taker : Side} {limit : Option Int} {view view' : OrdMap OrderId Resting} {found : List Match}

/-- What is taken from an order within reach is no longer reached. -/
theorem reach_taken {id : OrderId} {order : Resting} (found : view.get? id = some order) :
    reach taker limit (view.set id (order.taken quantity)) = reach taker limit view -
      if order.side = taker.opposite ∧ reaches taker limit order.price = true then quantity else 0 := by
  have step := view.sum_set (fun _ order => reachable taker limit order) id (order.taken quantity)
  rw [found,Option.elim_some] at step
  unfold reach
  by_cases within : order.side = taker.opposite ∧ reaches taker limit order.price = true
  · have before : reachable taker limit order = order.remaining := if_pos within
    have after : (order.taken quantity).elim 0 (reachable taker limit) = order.remaining - quantity := by
      unfold Resting.taken
      split_ifs with all
      · simp only [Option.elim_none]; omega
      · exact if_pos within
    rw [before,after] at step
    rw [if_pos within]
    omega
  · have before : reachable taker limit order = 0 := if_neg within
    have after : (order.taken quantity).elim 0 (reachable taker limit) = 0 := by
      unfold Resting.taken
      split_ifs with all
      · rfl
      · exact if_neg within
    rw [before,after] at step
    rw [if_neg within]
    omega

/-- Matching takes what it fills from what can be reached. -/
theorem Matched.reach (matched : Matched taker limit view found view') :
    reach taker limit view' = reach taker limit view - filled found := by
  induction matched with
  | nil => simp [filled]
  | cons found side price reached positive enough left more ih =>
    rw [ih,reach_taken found,if_pos ⟨side,by rw [price]; exact reached⟩]
    simp only [filled,List.map_cons,List.sum_cons]
    omega

theorem Exhausted.reach {book : Book} (exhausted : Exhausted taker limit book) : Book.reach taker limit book.view = 0 :=
  OrdMap.sum_eq_zero fun id order found =>
    if_neg fun ⟨side,reached⟩ => by
      rw [exhausted id order found side] at reached
      cases reached

/-- An aggressor is left with what it could not reach. -/
theorem Executed.left_eq {left : Int} {book book' : Book}
    (executed : Executed taker limit quantity left found book book') (more : 0 < left) :
    left = quantity - Book.reach taker limit book.view := by
  have none := (executed.exhausted more).reach
  have total := executed.matched.reach
  have := executed.remains
  omega

end Reach

section Executable
variable {book : Book} {taker : Side} {limit : Option Int}

private theorem takeWhile_eq_filter {α : Type} {p : α → Bool} {l : List α}
    (closed : l.Pairwise (fun a b => p b = true → p a = true)) : l.takeWhile p = l.filter p := by
  induction l with
  | nil => rfl
  | cons a rest ih =>
    obtain ⟨earlier,ordered⟩ := List.pairwise_cons.mp closed
    by_cases here : p a = true
    · rw [List.takeWhile_cons_of_pos here,List.filter_cons_of_pos here,ih ordered]
    · rw [List.takeWhile_cons_of_neg here,List.filter_cons_of_neg here]
      exact (List.filter_eq_nil_iff.mpr fun b member later => here (earlier b member later)).symm

/-- A saturating sum of nonnegative quantities stops at the greatest quantity. -/
private theorem saturating_sum {l : List (Int × Level)} (nonneg : ∀ e ∈ l, 0 ≤ e.2.total) {start : Int}
    (low : 0 ≤ start) (high : start ≤ 9223372036854775807) :
    l.foldl (fun total e => (to_i64 (total + e.2.total)).getD 9223372036854775807) start =
      min 9223372036854775807 (start + (l.map (fun e => e.2.total)).sum) := by
  induction l generalizing start with
  | nil => simp [high]
  | cons e rest ih =>
    have here := nonneg e (.head _)
    have nonneg (e : Int × Level) (inside : e ∈ rest) := nonneg e (.tail _ inside)
    have later : 0 ≤ (rest.map (fun e => e.2.total)).sum :=
      List.sum_nonneg fun x member => by
        obtain ⟨e,inside,rfl⟩ := List.mem_map.mp member
        exact nonneg e inside
    simp only [List.foldl_cons,List.map_cons,List.sum_cons]
    by_cases fits : start + e.2.total ≤ 9223372036854775807
    · rw [to_i64_of_fits (by omega) fits,Option.getD_some,ih nonneg (by omega) fits,add_assoc]
    · have over_range : to_i64 (start + e.2.total) = none := if_neg fun within => fits within.2
      rw [over_range,Option.getD_none,ih nonneg (by omega) le_rfl]
      omega

/-- The orders of several levels, counted level by level. -/
private theorem level_sums (orders : OrdMap OrderId BookOrder) (side : Side) (f : BookOrder → Int) {prices : List Int}
    (distinct : prices.Nodup) : (prices.map (fun price => level_sum orders side price f)).sum =
      orders.sum (fun _ order => if order.side = side ∧ order.price ∈ prices then f order else 0) := by
  induction prices with
  | nil => exact (OrdMap.sum_eq_zero fun _ _ _ => if_neg (by simp)).symm
  | cons price rest ih =>
    obtain ⟨new,distinct⟩ := List.nodup_cons.mp distinct
    rw [List.map_cons,List.sum_cons,ih distinct,level_sum,← OrdMap.sum_add]
    refine OrdMap.sum_congr fun id order _ => ?_
    by_cases own : order.side = side
    · by_cases here : order.price = price
      · simp [BookOrder.At,own,here,new]
      · simp [BookOrder.At,own,here]
    · simp [BookOrder.At,own]

/-- The levels an aggressor sweeps, best first. -/
def swept (book : Book) (taker : Side) : List (Int × Level) :=
  match taker with
  | .Buy => book.asks.entries
  | .Sell => book.bids.entries.reverse

theorem mem_swept {e : Int × Level} : e ∈ book.swept taker ↔ book.level taker.opposite e.1 = some e.2 := by
  cases taker with
  | Buy => exact OrdMap.get?_eq_some_iff.symm
  | Sell => exact List.mem_reverse.trans OrdMap.get?_eq_some_iff.symm

private theorem swept_closed :
    (book.swept taker).Pairwise (fun a b => reaches taker limit b.1 = true → reaches taker limit a.1 = true) := by
  cases taker with
  | Buy =>
    refine book.asks.sorted.imp fun {a b} less => ?_
    cases limit <;> simp [reaches,crosses]
    omega
  | Sell =>
    refine List.pairwise_reverse.mpr (book.bids.sorted.imp fun {a b} less => ?_)
    cases limit <;> simp [reaches,crosses]
    omega

private theorem swept_prices_nodup (book : Book) (taker : Side) : ((book.swept taker).map Prod.fst).Nodup := by
  cases taker with
  | Buy => exact book.asks.keys_nodup
  | Sell =>
    rw [swept,List.map_reverse]
    exact List.nodup_reverse.mpr book.bids.keys_nodup

theorem Sound.level_total (sound : book.Sound) {e : Int × Level} (member : e ∈ book.swept taker) :
    e.2.total = level_sum book.orders taker.opposite e.1 BookOrder.remaining := by
  have total := (sound.holds taker.opposite e.1).total
  rwa [entry,mem_swept.mp member] at total

/-- What an aggressor reaches, counted level by level. -/
theorem Sound.reach_eq (sound : book.Sound) (taker : Side) (limit : Option Int) : reach taker limit book.view =
    (((book.swept taker).filter (fun e => reaches taker limit e.1)).map (fun e => e.2.total)).sum := by
  have distinct : (((book.swept taker).filter (fun e => reaches taker limit e.1)).map Prod.fst).Nodup :=
    (List.filter_sublist.map Prod.fst).nodup (swept_prices_nodup book taker)
  symm
  calc (((book.swept taker).filter (fun e => reaches taker limit e.1)).map (fun e => e.2.total)).sum
    _ = ((((book.swept taker).filter (fun e => reaches taker limit e.1)).map Prod.fst).map
          (fun price => level_sum book.orders taker.opposite price BookOrder.remaining)).sum := by
        rw [List.map_map]
        exact congrArg List.sum (List.map_congr_left fun e member => sound.level_total (List.mem_filter.mp member).1)
    _ = book.orders.sum (fun _ order => reachable taker limit ⟨order.side,order.price,order.remaining⟩) := by
        rw [level_sums _ _ _ distinct]
        refine OrdMap.sum_congr fun id order found => ?_
        unfold reachable
        by_cases own : order.side = taker.opposite
        · obtain ⟨lvl,there⟩ := sound.has_level (view_of_order found)
          have swept : (order.price,lvl) ∈ book.swept taker := mem_swept.mpr (by rw [← own]; exact there)
          have reached : order.price ∈ ((book.swept taker).filter (fun e => reaches taker limit e.1)).map Prod.fst ↔
              reaches taker limit order.price = true := by
            constructor
            · intro member
              obtain ⟨e,inside,same⟩ := List.mem_map.mp member
              rw [← same]
              exact (List.mem_filter.mp inside).2
            · intro reached
              exact List.mem_map.mpr ⟨_,List.mem_filter.mpr ⟨swept,reached⟩,rfl⟩
          simp only [own,true_and,reached]
        · rw [if_neg (fun h => own h.1),if_neg (fun h => own h.1)]
    _ = reach taker limit book.view := (OrdMap.sum_mapValues ..).symm

/-- What an aggressor can execute, up to the greatest quantity. -/
theorem Sound.executable_min (sound : book.Sound) :
    book.executable taker limit = min 9223372036854775807 (reach taker limit book.view) := by
  have nonneg (e : Int × Level) (member : e ∈ (book.swept taker).filter (fun e => reaches taker limit e.1)) :
      0 ≤ e.2.total := by
    rw [sound.level_total (List.mem_filter.mp member).1]
    refine OrdMap.sum_nonneg fun id order found => ?_
    have formed := sound.order found
    have := formed.visible
    have := formed.hidden
    split_ifs <;> omega
  rw [sound.reach_eq]
  unfold executable
  change ((book.swept taker).takeWhile (fun e => reaches taker limit e.1)).foldl
    (fun total e => (to_i64 (total + e.2.total)).getD 9223372036854775807) 0 = _
  rw [takeWhile_eq_filter swept_closed,saturating_sum nonneg le_rfl (by omega),zero_add]

end Executable

end Book

end Bunting
