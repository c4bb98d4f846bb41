import Bunting.Auction

/-!
The persisted form of a book: its resting orders, from which all levels and sums
are rebuilt. A book that was built by trading is rebuilt as it was. What is not
checked on the way is the displayed size of an order, so a record may load into
a book that cannot refresh an iceberg.
-/

namespace Bunting
open Stateful

structure BookRecord where
  next_priority : Nat
  orders : List BookOrder
  deriving DecidableEq

/-- Bids sort before asks. -/
def Side.rank : Side → Nat
  | .Buy => 0
  | .Sell => 1

def BookOrder.key (order : BookOrder) : Nat ×ₗ Int ×ₗ Nat := toLex (order.side.rank,toLex (order.price,order.priority))

def BookError.text : BookError → String
  | .DuplicateOrder => "DuplicateOrder"
  | .InvalidOrder => "InvalidOrder"
  | .Overflow => "Overflow"

def BookRecord.from_book (book : Book) : BookRecord :=
  ⟨book.next_priority,book.orders.values.insertionSort (fun a b => a.key ≤ b.key)⟩

namespace Book

/-- Inserts one persisted order. -/
def load (next_priority : Nat) (book : Book) (order : BookOrder) : Except String Book := do
  refuse (order.priority ≥ next_priority) "order priority beyond the book sequence"
  match (insert order).run book with
  | .ok _ book => pure book
  | .error error _ => throw error.text

def try_from (record : BookRecord) : Except String Book :=
  record.orders.foldlM (load record.next_priority) { next_priority := record.next_priority }

/-- What the operations of the book reach from a book. -/
inductive Later (start : Book) : Book → Prop
  | refl : Later start start
  | rest {book book'} {id : OrderId} {side : Side} {price quantity : Int} {display : Option Int} {x : Unit}
      (before : Later start book) (ran : (rest id side price quantity display).run book = .ok x book') : Later start book'
  | execute {book book'} {taker : Side} {limit : Option Int} {quantity : Int} {out : List Match × Int}
      (before : Later start book) (ran : (execute taker limit quantity).run book = .ok out book') : Later start book'
  | cancel {book} {id : OrderId} (before : Later start book) : Later start (cancel id book).2
  | uncross {book book'} {price : Int} {crosses : List Cross}
      (before : Later start book) (ran : (uncross price).run book = .ok crosses book') : Later start book'

/-- Whatever happens to a book, it can be traded, as long as nothing overflows. -/
def Tradable (start : Book) : Prop :=
  ∀ book, Later start book →
    (∀ taker limit quantity e book', 0 < quantity → (execute taker limit quantity).run book = .error e book' →
      e = .Overflow) ∧
    ∀ price e book', (uncross price).run book = .error e book' → e = .Overflow

section Later
variable {start book : Book}

/-- What a level sums over its queue is what rests at its side and price. -/
theorem LevelSound.queue_sum {orders : OrdMap OrderId BookOrder} {side : Side} {price : Int} {level : Level}
    (sound : LevelSound orders side price level) (f : BookOrder → Int) :
    level.queue.sum (fun _ id => (orders.get? id).elim 0 f) = level_sum orders side price f := by
  simp only [← OrdMap.sum_single orders (fun _ order => f order)]
  rw [OrdMap.sum_comm]
  refine OrdMap.sum_congr fun id order found => ?_
  split_ifs with here
  · have queued : level.queue.get? order.priority = some id := (sound.queued _ _).mpr ⟨order,found,here,rfl⟩
    have alone : level.queue.sum (fun _ other => if id = other then f order else 0) =
        level.queue.sum (fun priority _ => if priority = order.priority then f order else 0) := by
      refine OrdMap.sum_congr fun priority other there => if_congr ⟨fun same => ?_,fun same => ?_⟩ rfl rfl
      · subst same
        obtain ⟨order',found',_,rfl⟩ := (sound.queued _ _).mp there
        cases found.symm.trans found'
        rfl
      · subst same
        exact Option.some.inj (queued.symm.trans there)
    rw [alone,OrdMap.sum_single level.queue (fun _ _ => f order),queued,Option.elim_some]
  · refine OrdMap.sum_eq_zero fun priority other there => if_neg fun same => here ?_
    subst same
    obtain ⟨order',found',at_level,_⟩ := (sound.queued _ _).mp there
    cases found.symm.trans found'
    exact at_level

theorem Sound.cancel (sound : book.Sound) (id : OrderId) :
    (Book.cancel id book).2.Sound ∧ Advances book (Book.cancel id book).2 := by
  unfold Book.cancel
  cases found : book.orders.get? id with
  | none => exact ⟨sound,.refl book⟩
  | some order =>
    obtain ⟨book',removes⟩ := sound.remove_total found
    obtain ⟨_,removed⟩ := remove_ok removes
    simp only [removes]
    exact ⟨removed.sound sound,.erase removed.orders removed.next.ge⟩

/-- An order that comes to rest is behind all others and displays its peak. -/
theorem rest_ranked {id : OrderId} {side : Side} {price quantity : Int} {display : Option Int} {x : Unit} {book' : Book}
    (sound : book.Sound) (ran : (rest id side price quantity display).run book = .ok x book') :
    (book.Ranked → book'.Ranked) ∧ (book.Peaked → book'.Peaked) := by
  simp only [rest,returned] at ran
  obtain ⟨_,_,priority,_,takes,inserts⟩ := ran
  obtain ⟨rfl,rfl⟩ := take_priority_ok takes
  have orders := (insert_ok inserts).orders
  have behind {other : OrderId} {order : BookOrder} (found : book.orders.get? other = some order) :
      order.priority ≠ book.next_priority := (sound.order found).priority.ne
  refine ⟨fun ranked a b _ _ found found' same => ?_,fun peaked a _ found => ?_⟩
  · rw [orders,OrdMap.get?_insert] at found found'
    split_ifs at found found' with here here' here'
    · exact here.trans here'.symm
    · cases found
      exact absurd same.symm (behind found')
    · cases found'
      exact absurd same (behind found)
    · exact ranked a b _ _ found found' same
  · rw [orders] at found
    refine OrdMap.of_insert found (fun peak shown => ?_) peaked
    have shown : display = some peak := shown
    simp [shown]

theorem Later.keeps (later : Later start book) (sound : start.Sound) :
    book.Sound ∧ (start.Ranked → book.Ranked) ∧ (start.Peaked → book.Peaked) := by
  induction later with
  | refl => exact ⟨sound,id,id⟩
  | rest _ ran ih =>
    obtain ⟨ranks,peaks⟩ := rest_ranked ih.1 ran
    exact ⟨(rest_ok ih.1 ran).1,ranks ∘ ih.2.1,peaks ∘ ih.2.2⟩
  | execute _ ran ih =>
    have executed := (execute_ok ih.1 ran).2
    exact ⟨executed.sound,executed.advances.ranked ∘ ih.2.1,executed.advances.peaked ∘ ih.2.2⟩
  | cancel _ ih =>
    obtain ⟨sound,advances⟩ := ih.1.cancel _
    exact ⟨sound,advances.ranked ∘ ih.2.1,advances.peaked ∘ ih.2.2⟩
  | uncross _ ran ih =>
    obtain ⟨sound,_,_,advances⟩ := uncross_ok ih.1 ran
    exact ⟨sound,advances.ranked ∘ ih.2.1,advances.peaked ∘ ih.2.2⟩

theorem Later.sound (later : Later start book) (sound : start.Sound) : book.Sound := (later.keeps sound).1

theorem Sound.tradable (sound : start.Sound) : Tradable start := fun _ later =>
  ⟨fun _ _ _ _ _ positive failed => execute_error (later.sound sound) positive failed,
    fun _ _ _ failed => uncross_error (later.sound sound) failed⟩

/-- In every book that the operations make from the empty one: no level is empty and each sums up its queue, the queues
    hold the resting orders, each at its own side, price and priority, no priority is given twice, and every order displays
    some of what remains of it, an iceberg no more than its peak. -/
theorem operations_keep_the_book (later : Later {} book) :
    (∀ side price level, book.level side price = some level → (∃ entry, level.queue.first? = some entry) ∧
      level.visible = level.queue.sum (fun _ id => (book.orders.get? id).elim 0 BookOrder.visible) ∧
      level.total = level.queue.sum (fun _ id => (book.orders.get? id).elim 0 BookOrder.remaining)) ∧
    (∀ side price priority id, (∃ level, book.level side price = some level ∧ level.queue.get? priority = some id) ↔
      ∃ order, book.orders.get? id = some order ∧ order.side = side ∧ order.price = price ∧ order.priority = priority) ∧
    (∀ id id' order order', book.orders.get? id = some order → book.orders.get? id' = some order' →
      order.priority = order'.priority → id = id') ∧
    ∀ id order, book.orders.get? id = some order → order.order_id = id ∧ order.priority < book.next_priority ∧
      0 < order.visible ∧ order.visible ≤ order.remaining ∧ ∀ peak ∈ order.display, order.visible ≤ peak := by
  obtain ⟨sound,ranked,peaked⟩ := later.keeps sound_empty
  have queued (side : Side) (price : Int) (priority : Nat) (id : OrderId) :
      (∃ level, book.level side price = some level ∧ level.queue.get? priority = some id) ↔
        (book.entry side price).queue.get? priority = some id := by
    unfold entry
    cases book.level side price <;> simp
  refine ⟨fun side price level found => ⟨sound.nonempty found,?_⟩,fun side price priority id => ?_,
    ranked fun _ _ _ _ found => (by cases found),fun id order found => ?_⟩
  · have level_sound := sound.holds side price
    rw [entry,found,Option.getD_some] at level_sound
    rw [level_sound.queue_sum,level_sound.queue_sum]
    exact ⟨level_sound.visible,level_sound.total⟩
  · rw [queued,(sound.holds side price).queued]
    simp only [BookOrder.At,and_assoc]
  · have formed := sound.order found
    exact ⟨formed.order_id,formed.priority,formed.visible,formed.hidden,
      peaked (fun _ _ found => (by cases found)) id order found⟩

/-- An iceberg of ten that shows two, after one lot of it has traded. -/
theorem operations_keep_the_book_of_an_iceberg : ∃ book level, Later {} book ∧ book.level .Sell 100 = some level ∧
    level.visible = 1 ∧ level.queue.sum (fun _ id => (book.orders.get? id).elim 0 BookOrder.visible) = 1 := by
  obtain ⟨_,first,rests,_,book,trades,level,found,shown⟩ : ∃ x first,
      (rest 7 .Sell 100 10 (some 2)).run {} = .ok x first ∧ ∃ out book, (execute .Buy none 1).run first = .ok out book ∧
        ∃ level, book.level .Sell 100 = some level ∧ level.visible = 1 := by decide +kernel
  have later : Later {} book := .execute (.rest .refl rests) trades
  obtain ⟨_,visible,_⟩ := (operations_keep_the_book later).1 _ _ _ found
  exact ⟨book,level,later,found,shown,visible.symm.trans shown⟩

end Later

section Ext
variable {book book' : Book}

theorem Sound.level_eq (sound : book.Sound) (sound' : book'.Sound) (orders : book.orders = book'.orders) (side : Side)
    (price : Int) : book.level side price = book'.level side price := by
  have one := sound.holds side price
  have two := sound'.holds side price
  rw [← orders] at two
  have queue : (book.entry side price).queue = (book'.entry side price).queue := OrdMap.ext_get? fun priority =>
    Option.ext fun id => (one.queued priority id).trans (two.queued priority id).symm
  have entry : book.entry side price = book'.entry side price := by
    have visible := one.visible.trans two.visible.symm
    have total := one.total.trans two.total.symm
    generalize book.entry side price = a at *
    generalize book'.entry side price = b at *
    cases a
    cases b
    simp_all
  unfold Book.entry at entry
  cases here : book.level side price with
  | none =>
    cases there : book'.level side price with
    | none => rfl
    | some level =>
      obtain ⟨e,first⟩ := sound'.nonempty there
      rw [here,there,Option.getD_some] at entry
      rw [← entry] at first
      cases first
  | some level =>
    cases there : book'.level side price with
    | none =>
      obtain ⟨e,first⟩ := sound.nonempty here
      rw [here,there,Option.getD_some] at entry
      rw [entry] at first
      cases first
    | some level' =>
      rw [here,there] at entry
      exact congrArg some entry

theorem Sound.ext (sound : book.Sound) (sound' : book'.Sound) (orders : book.orders = book'.orders)
    (next : book.next_priority = book'.next_priority) : book = book' := by
  have bids : book.bids = book'.bids := OrdMap.ext_get? fun price => sound.level_eq sound' orders .Buy price
  have asks : book.asks = book'.asks := OrdMap.ext_get? fun price => sound.level_eq sound' orders .Sell price
  cases book
  cases book'
  simp_all

/-- To rest an order and cancel it gives the book back, but for the priority that was taken. -/
theorem cancel_undoes_rest {id : OrderId} {side : Side} {price quantity : Int} {display : Option Int} (sound : book.Sound)
    (rests : (rest id side price quantity display).run book = .ok () book') :
    cancel id book' = (some ⟨id,side,price,quantity,display.getD quantity,display,book.next_priority⟩,
      { book with next_priority := book.next_priority + 1 }) := by
  have sound' := (rest_ok sound rests).1
  simp only [rest,returned] at rests
  obtain ⟨_,_,_,_,takes,inserts⟩ := rests
  obtain ⟨rfl,rfl⟩ := take_priority_ok takes
  have inserted := insert_ok inserts
  have found := (congrArg (OrdMap.get? · id) inserted.orders).trans (OrdMap.get?_insert_self ..)
  obtain ⟨back,removes⟩ := sound'.remove_total found
  obtain ⟨_,removed⟩ := remove_ok removes
  have orders : back.orders = book.orders := by
    apply OrdMap.ext_get?
    intro j
    rw [removed.orders,inserted.orders,OrdMap.get?_erase,OrdMap.get?_insert]
    split_ifs with here
    · rw [here]
      exact inserted.absent.symm
    · rfl
  have same := (removed.sound sound').ext sound.bump orders (removed.next.trans inserted.next)
  simp only [cancel,found,removes,same]

/-- An iceberg comes to rest behind an order at its price. -/
theorem cancel_undoes_rest_of_an_iceberg : ∃ book book', (rest 5 .Sell 100 3 none).run {} = .ok () book ∧
    (rest 7 .Sell 100 10 (some 2)).run book = .ok () book' ∧
    cancel 7 book' = (some ⟨7,.Sell,100,10,2,some 2,1⟩,{ book with next_priority := 2 }) := by
  obtain ⟨_,book,first,_,book',second,next⟩ : ∃ x book, (rest 5 .Sell 100 3 none).run {} = .ok x book ∧
      ∃ x book', (rest 7 .Sell 100 10 (some 2)).run book = .ok x book' ∧ book.next_priority = 1 := by decide +kernel
  have undone := cancel_undoes_rest (rest_ok sound_empty first).1 second
  rw [next] at undone
  exact ⟨book,book',first,second,undone⟩

end Ext

section Load
variable {next : Nat} {book book' whole : Book} {order : BookOrder} {orders : List BookOrder} {record : BookRecord}

theorem load_ok : load next book order = .ok book' ↔ order.priority < next ∧ (insert order).run book = .ok () book' := by
  simp only [load,except_bind_eq_ok,except_refuse_eq_ok]
  cases (insert order).run book with
  | ok x after => simp [not_le,except_pure_eq_ok]
  | error e after => simp

/-- The book that a list of orders is loaded into. -/
structure Loaded (orders : List BookOrder) (book book' : Book) : Prop where
  here : ∀ order ∈ orders, book'.orders.get? order.order_id = some order
  kept : ∀ id order, book.orders.get? id = some order → book'.orders.get? id = some order
  only : ∀ id order, book'.orders.get? id = some order → book.orders.get? id = some order ∨ order ∈ orders
  next : book'.next_priority = book.next_priority

theorem load_all (loads : orders.foldlM (load next) book = .ok book') : Loaded orders book book' := by
  induction orders generalizing book with
  | nil =>
    cases loads
    exact ⟨by simp,fun _ _ found => found,fun _ _ found => .inl found,rfl⟩
  | cons order rest ih =>
    rw [List.foldlM_cons,except_bind_eq_ok] at loads
    obtain ⟨between,first,loads⟩ := loads
    have done := insert_ok (load_ok.mp first).2
    have loaded := ih loads
    refine ⟨List.forall_mem_cons.mpr ⟨loaded.kept _ _ (by rw [done.orders,OrdMap.get?_insert_self]),loaded.here⟩,
      fun id other found => loaded.kept _ _ ?_,fun id other found => ?_,loaded.next.trans done.next⟩
    · rw [done.orders,OrdMap.get?_insert_of_ne fun same => ?_]
      · exact found
      · rw [same,done.absent] at found
        cases found
    · obtain before | later := loaded.only id other found
      · rw [done.orders] at before
        exact OrdMap.of_insert before (.inr (List.mem_cons_self ..)) fun _ _ => .inl
      · exact .inr (List.mem_cons_of_mem _ later)

theorem load_indexed (indexed : book.Indexed) (same : book.next_priority = next)
    (loads : orders.foldlM (load next) book = .ok book') : book'.Indexed := by
  induction orders generalizing book with
  | nil =>
    cases loads
    exact indexed
  | cons order rest ih =>
    rw [List.foldlM_cons,except_bind_eq_ok] at loads
    obtain ⟨between,first,loads⟩ := loads
    obtain ⟨earlier,inserts⟩ := load_ok.mp first
    have done := insert_ok inserts
    exact ih (done.indexed indexed (by rw [same]; exact earlier)) (done.next.trans same) loads

theorem load_sound (sound : book.Sound) (same : book.next_priority = next) (shows : ∀ order ∈ orders, Shows next order)
    (loads : orders.foldlM (load next) book = .ok book') : book'.Sound := by
  have all := load_all loads
  refine ⟨load_indexed sound.toIndexed same loads,fun {id order} found => ?_⟩
  rw [all.next]
  obtain before | member := all.only id order found
  · exact sound.shows before
  · rw [same]
    exact shows order member

/-- The orders of a sound book can be inserted one by one. -/
theorem load_total (sound : book.Sound) (sound' : whole.Sound) (same : book.next_priority = next)
    (same' : whole.next_priority = next) (inside : ∀ order ∈ orders, whole.orders.get? order.order_id = some order)
    (distinct : (orders.map BookOrder.order_id).Nodup)
    (absent : ∀ order ∈ orders, book.orders.get? order.order_id = none)
    (part : ∀ id order, book.orders.get? id = some order → whole.orders.get? id = some order)
    (sums : ∀ side price, level_sum book.orders side price BookOrder.remaining +
      (orders.map fun order => if BookOrder.At side price order then order.remaining else 0).sum =
        level_sum whole.orders side price BookOrder.remaining) :
    ∃ book', orders.foldlM (load next) book = .ok book' := by
  induction orders generalizing book with
  | nil => exact ⟨book,rfl⟩
  | cons order rest ih =>
    obtain ⟨here,inside⟩ := List.forall_mem_cons.mp inside
    obtain ⟨missing,absent⟩ := List.forall_mem_cons.mp absent
    obtain ⟨other,distinct⟩ := List.nodup_cons.mp distinct
    have formed := sound'.order here
    have level := sound.holds order.side order.price
    have level' := sound'.holds order.side order.price
    have fresh : (book.entry order.side order.price).queue.get? order.priority = none := by
      by_contra queued
      obtain ⟨id,queued⟩ := Option.ne_none_iff_exists'.mp queued
      obtain ⟨order',found,at_level,priority⟩ := (level.queued _ _).mp queued
      have one := (level'.queued _ _).mpr ⟨order',part _ _ found,at_level,priority⟩
      have two := (level'.queued _ _).mpr ⟨order,here,⟨rfl,rfl⟩,rfl⟩
      cases one.symm.trans two
      rw [missing] at found
      cases found
    have fits : (book.entry order.side order.price).total + order.remaining ≤ 9223372036854775807 := by
      have bound := level'.fits
      have nonneg : 0 ≤ (rest.map fun other =>
          if BookOrder.At order.side order.price other then other.remaining else 0).sum :=
        List.sum_nonneg fun x member => by
          obtain ⟨other,there,rfl⟩ := List.mem_map.mp member
          have formed := sound'.order (inside other there)
          have := formed.visible
          have := formed.hidden
          split_ifs <;> omega
      have sum := sums order.side order.price
      rw [level'.total,← sum,List.map_cons,List.sum_cons,if_pos ⟨rfl,rfl⟩] at bound
      rw [level.total]
      omega
    obtain ⟨between,inserts⟩ : ∃ between, (insert order).run book = .ok () between := by
      cases ran : (insert order).run book with
      | ok x between => exact ⟨between,rfl⟩
      | error e between =>
        have := (insert_error sound ran ⟨formed.visible,formed.hidden,formed.price⟩ missing fresh).2
        omega
    have done := insert_ok inserts
    have priority : order.priority < next := by rw [← same']; exact formed.priority
    rw [List.foldlM_cons,load_ok.mpr ⟨priority,inserts⟩]
    refine ih (done.sound sound (by rw [same,← same']; exact sound'.shows here) (by rw [same]; exact priority))
      (done.next.trans same) inside distinct (fun order' member => ?_) (fun id order' found => ?_) fun side price => ?_
    · rw [done.orders,OrdMap.get?_insert_of_ne fun same => other ?_]
      · exact absent order' member
      · rw [← same]
        exact List.mem_map_of_mem member
    · rw [done.orders] at found
      exact OrdMap.of_insert found here part
    · rw [done.orders,level_sum_insert missing,← sums side price,List.map_cons,List.sum_cons,add_assoc]

theorem from_book_orders (book : Book) : (BookRecord.from_book book).orders.Perm book.orders.values :=
  List.perm_insertionSort _ _

theorem Sound.mem_record (sound : book.Sound) :
    order ∈ (BookRecord.from_book book).orders ↔ book.orders.get? order.order_id = some order := by
  rw [(from_book_orders book).mem_iff,OrdMap.mem_values]
  constructor
  · rintro ⟨id,found⟩
    rw [(sound.order found).order_id]
    exact found
  · exact fun found => ⟨_,found⟩

/-- A sound book is what its record loads into. -/
theorem Sound.try_from_record (sound : book.Sound) : try_from (BookRecord.from_book book) = .ok book := by
  have start := sound_start book.next_priority
  have distinct : ((BookRecord.from_book book).orders.map BookOrder.order_id).Nodup := by
    have keys : book.orders.values.map BookOrder.order_id = book.orders.keys := by
      rw [OrdMap.values,OrdMap.keys,List.map_map]
      exact List.map_congr_left fun e member => (sound.order (OrdMap.get?_eq_some_iff.mpr member)).order_id
    rw [((from_book_orders book).map _).nodup_iff,keys]
    exact book.orders.keys_nodup
  have sums (side : Side) (price : Int) : level_sum ∅ side price BookOrder.remaining +
      ((BookRecord.from_book book).orders.map fun order =>
        if BookOrder.At side price order then order.remaining else 0).sum =
      level_sum book.orders side price BookOrder.remaining := by
    rw [((from_book_orders book).map _).sum_eq,OrdMap.values,List.map_map]
    exact zero_add _
  have loaded : ∃ book', try_from (BookRecord.from_book book) = .ok book' :=
    load_total start sound rfl rfl (fun order member => sound.mem_record.mp member) distinct (fun _ _ => rfl)
      (fun _ _ found => by cases found) sums
  obtain ⟨book',loads⟩ := loaded
  have all := load_all loads
  have sound' := load_sound start rfl
    (fun order member => sound.shows (sound.mem_record.mp member)) loads
  have orders : book'.orders = book.orders := OrdMap.ext_get? fun id => Option.ext fun order => by
    constructor
    · intro found
      obtain before | member := all.only id order found
      · cases before
      · rw [← (sound'.order found).order_id]
        exact sound.mem_record.mp member
    · intro found
      have key := (sound.order found).order_id
      rw [← key] at found ⊢
      exact all.here order (sound.mem_record.mpr found)
  rw [loads,sound'.ext sound orders all.next]

end Load

/-! ### What a record is good for -/

/-- An order with nothing displayed and no peak is not queued anew. -/
theorem put_back_stuck {book : Book} {order : BookOrder} {peak : Int} (hidden : 0 < order.remaining)
    (spent : order.visible = 0) (shown : peak ∈ order.display) (low : peak ≤ 0)
    (room : book.next_priority < 18446744073709551615) :
    ∃ book', (put_back order).run book = .error .InvalidOrder book' := by
  rw [put_back,if_pos hidden,if_pos spent]
  simp only [refresh,take_priority,insert,returned,raised]
  refine ⟨_,.inr ⟨_,_,⟨_,if_pos room,rfl,rfl⟩,.inl ⟨.inr (.inl ?_),trivial,rfl⟩⟩⟩
  rw [Option.mem_def.mp shown]
  exact (min_le_left ..).trans low

section Heads
variable {book : Book} {side : Side} {price : Int}

/-- Taking all that the first order of a level displays fails where its next slice would be empty. -/
theorem Indexed.head_stuck {level : Level} {e : Nat × OrderId} {order : BookOrder} (indexed : book.Indexed)
    (here : book.level side price = some level) (first : level.queue.first? = some e)
    (found : book.orders.get? e.2 = some order) (hides : ¬ Shows book.next_priority order) :
    ∃ book', (execute_head side price order.visible).run book = .error .InvalidOrder book' := by
  simp only [Shows,not_forall,not_or] at hides
  obtain ⟨peak,shown,low,partly,room⟩ := hides
  obtain ⟨_,_,visible,hidden,_⟩ := indexed.order found
  have fits := indexed.order_fits found
  obtain ⟨between,removes⟩ := indexed.remove_total found
  obtain ⟨_,removed⟩ := remove_ok removes
  obtain ⟨book',stuck⟩ := @put_back_stuck between
    { order with remaining := order.remaining - order.visible, visible := 0 } peak (by simp only; omega) rfl shown
    (not_lt.mp low) (by rw [removed.next]; omega)
  have spent : to_i64 (order.visible - min order.visible order.visible) = some 0 := by simp [to_i64]
  simp only [execute_head,returned,raised]
  refine ⟨book',.inr ⟨e.2,?_,.inr ⟨order,found,.inr ⟨by omega,.inr ⟨0,spent,.inr ⟨order.remaining - order.visible,?_,
    .inr ⟨0,spent,.inr ⟨between,removes,stuck⟩⟩⟩⟩⟩⟩⟩⟩
  · unfold Book.level at here
    rw [here,Option.bind_some,first,Option.map_some]
  · rw [min_self]
    exact to_i64_of_fits (by omega) (by omega)

/-- The first order of the best level shows, or taking what it displays fails. -/
theorem Indexed.head_shows (indexed : book.Indexed) (best : book.best side = some price) :
    ∃ order, book.orders.get? order.order_id = some order ∧ (Shows book.next_priority order ∨
      ∃ book', (execute side.opposite none order.visible).run book = .error .InvalidOrder book') := by
  obtain ⟨level,here⟩ := best_some best
  obtain ⟨e,first⟩ := indexed.nonempty here
  obtain ⟨order,found,_⟩ := indexed.head here first
  obtain ⟨same,_,visible,_⟩ := indexed.order found
  refine ⟨order,by rw [same]; exact found,or_iff_not_imp_left.mpr fun hides => ?_⟩
  obtain ⟨book',stuck⟩ := indexed.head_stuck here first found hides
  obtain ⟨fuel,enough⟩ : ∃ fuel, order.visible.toNat = fuel + 1 := ⟨order.visible.toNat - 1,by omega⟩
  refine ⟨book',?_⟩
  have other : side.opposite.opposite = side := by cases side <;> rfl
  simp only [execute,returned,raised]
  refine .inr ⟨by omega,?_⟩
  rw [enough,execute_loop,if_neg (by omega)]
  simp only [returned,raised,other,best]
  rw [if_pos (show reaches side.opposite none price = true from rfl),EStateM.run_bind,stuck]

end Heads

/-- In a book that can be traded every order shows: the first of the best level does, and so does every other once the
    first is cancelled. -/
theorem Tradable.shows {start book : Book} {id : OrderId} {order : BookOrder} (tradable : start.Tradable)
    (later : Later start book) (indexed : book.Indexed) (found : book.orders.get? id = some order) :
    Shows book.next_priority order := by
  induction size : book.orders.size using Nat.strong_induction_on generalizing book with
  | _ n ih =>
    obtain ⟨level,there⟩ := indexed.has_level (view_of_order found)
    obtain ⟨price,best⟩ := exists_best there
    obtain ⟨head,here,shows | ⟨_,stuck⟩⟩ := indexed.head_shows best
    · by_cases same : id = head.order_id
      · subst same
        cases found.symm.trans here
        exact shows
      · obtain ⟨between,removes⟩ := indexed.remove_total here
        obtain ⟨_,removed⟩ := remove_ok removes
        have cancels : (cancel head.order_id book).2 = between := by simp only [cancel,here,removes]
        have fewer := OrdMap.size_erase (OrdMap.contains_iff.mpr ⟨_,here⟩)
        rw [← removed.orders] at fewer
        rw [← removed.next]
        refine ih _ (by omega) (cancels ▸ later.cancel) (removed.indexed indexed) ?_ rfl
        rw [removed.orders,OrdMap.get?_erase_of_ne _ same]
        exact found
    · cases (tradable _ later).1 _ _ _ _ _ (indexed.order here).visible stuck

/-- A book that the operations built is loaded from its record as it was. A record that loads gives a book whose levels
    queue and sum up its orders, and which can be traded whatever happens, exactly when every order has a positive peak
    or nothing hidden, or no priority is left to queue it anew. -/
theorem records_load (built book : Book) (record : BookRecord) :
    (Later {} built → try_from (BookRecord.from_book built) = .ok built) ∧
    (try_from record = .ok book → book.Indexed ∧
      (book.Tradable ↔ ∀ order ∈ record.orders, ∀ peak ∈ order.display, 0 < peak ∨ order.visible = order.remaining ∨
        18446744073709551615 ≤ record.next_priority)) := by
  refine ⟨fun later => (later.sound sound_empty).try_from_record,fun loads => ?_⟩
  have indexed := load_indexed (sound_start _).toIndexed rfl loads
  have all := load_all loads
  refine ⟨indexed,fun tradable order member => ?_,fun shows => (load_sound (sound_start _) rfl shows loads).tradable⟩
  have := tradable.shows .refl indexed (all.here order member)
  rw [all.next] at this
  exact this

/-- An iceberg of ten that displays two, behind an order of three that displays all of itself and never needs its peak. -/
theorem iceberg_record_loads :
    ∃ book, try_from ⟨2,[⟨7,.Sell,100,3,3,some 0,0⟩,⟨8,.Sell,100,10,2,some 2,1⟩]⟩ = .ok book ∧ book.Indexed ∧
      book.Tradable := by
  obtain ⟨book,loads⟩ : ∃ book, try_from ⟨2,[⟨7,.Sell,100,3,3,some 0,0⟩,⟨8,.Sell,100,10,2,some 2,1⟩]⟩ = .ok book := ⟨_,rfl⟩
  obtain ⟨indexed,tradable⟩ := (records_load book book _).2 loads
  exact ⟨book,loads,indexed,tradable.mpr (by decide)⟩

/-- An iceberg that displays nothing once its first lot has traded loads, and no one can trade with it. -/
theorem empty_display_loads :
    ∃ book book', try_from ⟨1,[⟨7,.Sell,100,2,1,some 0,0⟩]⟩ = .ok book ∧
      (execute .Buy none 1).run book = .error .InvalidOrder book' ∧ ¬ book.Tradable := by
  refine ⟨_,_,rfl,rfl,fun tradable => ?_⟩
  have := (tradable _ .refl).1 .Buy none 1 .InvalidOrder _ (by decide) rfl
  cases this

end Book
end Bunting
