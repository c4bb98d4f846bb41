import Bunting.BookRecord
import Bunting.MatchingQueue

/-!
What an aggressor executes. The executions take the queue of the other side from
its head (`Works`); the sum is what the aggressor wants or all that its limit
lets it reach (`Exact`).
-/

namespace Bunting
open Stateful
namespace Book

/-- Executions that take a queue from its head, each at most the slice that the
    head displays. -/
inductive Works (side : Side) : Int → List BookOrder → List Match → Prop
  | nil {quantity queue} : Works side quantity queue []
  | cons {quantity order rest m ms} (next : Nat) (positive : 0 < m.quantity) (maker : m.maker = order.order_id)
      (price : m.price = order.price) (fill : m.quantity = min quantity order.visible)
      (ahead : ∀ other ∈ rest, Ahead side order other) (distinct : ∀ other ∈ rest, other.order_id ≠ order.order_id)
      (more : Works side (quantity - m.quantity) (traded next m.quantity order rest) ms) :
      Works side quantity (order :: rest) (m :: ms)

/-- The slice that an order displays once `earlier` executions have taken the ones before. -/
def slice (order : BookOrder) (earlier : List Match) : Int :=
  if earlier = [] then order.visible else min (order.display.getD order.remaining) (order.remaining - filled earlier)

/-- A price that is no better for the aggressor than the one before. -/
def NoBetter (taker : Side) (before price : Int) : Prop :=
  match taker with
  | .Buy => before ≤ price
  | .Sell => price ≤ before

section Works
variable {side : Side} {quantity price : Int} {queue rest : List BookOrder} {ms : List Match} {m : Match}
  {order other : BookOrder} {next : Nat}

theorem filter_requeue_here :
    (requeue order rest).filter (fun other => other.price = order.price) =
      rest.filter (fun other => other.price = order.price) ++ [order] := by
  have none : (rest.filter fun other => decide (other.price = order.price) && decide ¬ other.price = order.price) = [] :=
    List.filter_eq_nil_iff.mpr fun other _ => by simp
  simp only [requeue,List.filter_append,List.filter_filter,List.filter_cons,decide_true,if_true,Bool.and_self,none]

theorem filter_requeue_other (elsewhere : ¬ order.price = price) :
    (requeue order rest).filter (fun other => other.price = price) = rest.filter (fun other => other.price = price) := by
  simp only [requeue,List.filter_append,List.filter_filter,List.filter_cons,elsewhere,decide_false,Bool.false_eq_true,
    if_false]
  rw [List.filter_eq_nil_iff.mpr fun other _ => by simp; omega,List.nil_append]
  refine List.filter_congr fun other _ => ?_
  by_cases here : other.price = price
  · simp [here,Ne.symm elsewhere]
  · simp [here]

/-- A trade changes the queue at its own price only. -/
theorem filter_traded_other (elsewhere : ¬ order.price = price) :
    (traded next quantity order rest).filter (fun other => other.price = price) =
      rest.filter (fun other => other.price = price) := by
  unfold traded
  cases after : order.after next quantity with
  | none => rfl
  | some left =>
    have same : ¬ left.price = price := by rw [(after_same after).2.2.1]; exact elsewhere
    dsimp only
    split_ifs
    · rw [List.filter_cons,if_neg (by simpa using same)]
    · exact filter_requeue_other same

/-- Where a slice is used up, the others of its price come first. -/
theorem filter_traded_here (next : Nat) (rest : List BookOrder) (used : order.visible ≤ quantity) :
    ∃ last, (traded next quantity order rest).filter (fun other => other.price = order.price) =
      rest.filter (fun other => other.price = order.price) ++ last := by
  unfold traded
  cases after : order.after next quantity with
  | none => exact ⟨[],by simp⟩
  | some left =>
    dsimp only
    rw [if_neg (by omega),← (after_same after).2.2.1]
    exact ⟨_,filter_requeue_here⟩

/-- Each execution is with an order of the queue, at its price. -/
theorem Works.maker (works : Works side quantity queue ms) (member : m ∈ ms) :
    ∃ order ∈ queue, order.order_id = m.maker ∧ order.price = m.price := by
  induction works with
  | nil => cases member
  | cons next _ maker price _ _ _ _ ih =>
    obtain rfl | later := List.mem_cons.mp member
    · exact ⟨_,List.mem_cons_self ..,maker.symm,price.symm⟩
    · obtain ⟨order',inside,maker',price'⟩ := ih later
      obtain after | inside := mem_traded.mp inside
      · have same := after_same after
        exact ⟨_,List.mem_cons_self ..,same.1.symm.trans maker',same.2.2.1.symm.trans price'⟩
      · exact ⟨_,List.mem_cons_of_mem _ inside,maker',price'⟩

theorem Works.prices {taker : Side} (works : Works taker.opposite quantity queue ms) :
    ms.Pairwise (fun a b => NoBetter taker a.price b.price) := by
  induction works with
  | nil => exact .nil
  | cons next positive maker price fill ahead distinct more ih =>
    refine List.pairwise_cons.mpr ⟨fun m later => ?_,ih⟩
    obtain ⟨order',inside,_,price'⟩ := more.maker later
    rw [price,← price']
    obtain after | inside := mem_traded.mp inside
    · rw [(after_same after).2.2.1]
      cases taker <;> exact le_rfl
    · have := ahead order' inside
      cases taker <;> simp only [Ahead,Side.opposite,NoBetter] at this ⊢ <;> omega

/-- An execution that is not the last one uses up the slice. -/
theorem Works.used {e : Match} (works : Works side (quantity - m.quantity) queue ms) (later : e ∈ ms)
    (fill : m.quantity = min quantity order.visible) : m.quantity = order.visible := by
  cases works with
  | nil => cases later
  | cons next positive _ _ fill' => omega

/-- The slices displayed at one price trade in the order in which they rest. -/
theorem Works.slices (works : Works side quantity queue ms) {i : Nat}
    (rests : (queue.filter fun other => other.price = price)[i]? = some order)
    (trades : (ms.filter fun m => m.price = price)[i]? = some m) :
    m.maker = order.order_id ∧ m.quantity ≤ order.visible ∧
      (i + 1 < (ms.filter fun m => m.price = price).length → m.quantity = order.visible) := by
  induction works generalizing i with
  | nil => simp at trades
  | @cons quantity head rest m₀ ms next positive maker at_price fill ahead distinct more ih =>
    by_cases here : head.price = price
    · subst here
      simp only [List.filter_cons,decide_true,if_true,at_price] at rests trades ⊢
      cases i with
      | zero =>
        cases rests
        cases trades
        refine ⟨maker,by omega,fun longer => ?_⟩
        obtain ⟨m',later⟩ := List.exists_mem_of_length_pos (Nat.lt_of_succ_lt_succ longer)
        exact more.used (List.mem_filter.mp later).1 fill
      | succ i =>
        rw [List.getElem?_cons_succ] at rests trades
        have later := (List.mem_filter.mp (List.mem_of_getElem? trades)).1
        obtain ⟨last,behind⟩ := filter_traded_here next rest (more.used later fill).ge
        obtain ⟨same,most,whole⟩ := ih (i := i)
          (by rw [behind,List.getElem?_append_left (List.getElem?_eq_some_iff.mp rests).1]; exact rests) trades
        exact ⟨same,most,fun longer => whole (by simpa using longer)⟩
    · simp only [List.filter_cons,here,decide_false,Bool.false_eq_true,if_false,at_price] at rests trades ⊢
      exact ih (by rw [filter_traded_other here]; exact rests) trades

theorem slice_after {left : BookOrder} {first : Match} {earlier : List Match}
    (after : order.after next first.quantity = some left) (used : first.quantity = order.visible)
    (nonneg : 0 ≤ filled earlier) (positive : 0 < first.quantity) :
    slice left earlier ≤ slice order (first :: earlier) := by
  unfold BookOrder.after at after
  dsimp only at after
  have sum : filled (first :: earlier) = first.quantity + filled earlier := by simp [filled]
  rw [if_neg (by intro gone; rw [if_pos gone] at after; cases after),if_neg (by omega)] at after
  cases after
  unfold slice
  rw [if_neg (by simp : ¬ first :: earlier = []),sum]
  cases order.display with
  | none =>
    by_cases none : earlier = []
    · subst none
      simp only [filled,List.map_nil,List.sum_nil,if_true,Option.getD_none]
      omega
    · simp only [none,if_false,Option.getD_none]
      omega
  | some peak =>
    by_cases none : earlier = []
    · subst none
      simp only [filled,List.map_nil,List.sum_nil,if_true,Option.getD_some]
      omega
    · simp only [none,if_false,Option.getD_some]
      omega

variable (works : Works side quantity queue ms)
include works

theorem Works.positive (member : m ∈ ms) : 0 < m.quantity := by
  induction works with
  | nil => cases member
  | cons next positive _ _ _ _ _ _ ih =>
    obtain rfl | later := List.mem_cons.mp member
    · exact positive
    · exact ih later

theorem Works.filled_nonneg {taken : List Match} (among : ∀ m ∈ taken, m ∈ ms) :
    0 ≤ filled taken :=
  List.sum_nonneg fun x member => by
    obtain ⟨m,inside,rfl⟩ := List.mem_map.mp member
    exact (works.positive (among m inside)).le

theorem Works.visible {before after : List Match} (split : ms = before ++ m :: after)
    (member : order ∈ queue) (maker : order.order_id = m.maker) :
    m.quantity ≤ slice order (before.filter fun earlier => earlier.maker = m.maker) := by
  induction works generalizing before order with
  | nil => simp at split
  | @cons quantity head rest m₀ ms next positive first price fill ahead distinct more ih =>
    have is_head (member : order ∈ head :: rest) (same : order.order_id = head.order_id) : order = head := by
      obtain rfl | inside := List.mem_cons.mp member
      · rfl
      · exact (distinct order inside same).elim
    cases before with
    | nil =>
      cases split
      rw [is_head member (maker.trans first)]
      simp only [List.filter_nil,slice,if_true]
      omega
    | cons m₁ before =>
      cases split
      by_cases same : m₀.maker = m.maker
      · -- The head traded before: its next slice is what the queue holds of it now.
        obtain rfl := is_head member (maker.trans (same.symm.trans first))
        obtain ⟨left,inside,of_maker,_⟩ := more.maker (m := m) (by simp)
        obtain behind | inside := mem_traded.mp inside
        · rw [List.filter_cons,if_pos (by simpa using same)]
          refine (ih rfl (mem_traded.mpr (.inl behind)) of_maker).trans ?_
          exact slice_after behind (more.used (e := m) (by simp) fill)
            (more.filled_nonneg fun m' member => by simp [(List.mem_filter.mp member).1]) positive
        · exact (distinct left inside (of_maker.trans maker.symm)).elim
      · rw [List.filter_cons,if_neg (by simpa using same)]
        refine ih rfl (mem_traded.mpr (.inr ?_)) maker
        obtain rfl | inside := List.mem_cons.mp member
        · exact (same (first.trans maker)).elim
        · exact inside

end Works

section Execute
variable {taker : Side} {limit : Option Int} {quantity remaining left : Int} {book book' : Book} {found all : List Match}
  {fuel : Nat}

/-- What the executions of an aggressor are to the queue of the other side and to the book. -/
structure Worked (taker : Side) (limit : Option Int) (quantity : Int) (found : List Match) (book book' : Book) :
    Prop where
  works : Works taker.opposite quantity (book.resting taker.opposite) found
  others : ∀ id, (∀ m ∈ found, m.maker ≠ id) → book'.orders.get? id = book.orders.get? id
  within : ∀ m ∈ found, reaches taker limit m.price = true

theorem execute_works (sound : book.Sound) (ran : (execute taker limit quantity).run book = .ok (found,left) book') :
    Worked taker limit quantity found book book' := by
  have executes := (execute_run ran).2
  clear ran
  induction executes with
  | stop => exact ⟨.nil,fun _ _ => rfl,by simp⟩
  | @head remaining left' left price m rest book between book' best reach heads more ih =>
    obtain ⟨order,head,taken,maker,at_price,fill,_,rfl⟩ := execute_head_ok sound heads
    have later := ih taken.sound
    obtain ⟨behind,queue⟩ := sound.resting_head best head
    have next := later.works
    rw [sound.resting_traded taken.sound queue taken.orders] at next
    refine ⟨?_,fun id unmatched => ?_,List.forall_mem_cons.mpr ⟨by rw [at_price]; exact reach,later.within⟩⟩
    · rw [queue]
      exact .cons _ taken.positive maker (at_price.trans (head_ok sound head).2.2.symm) fill (sound.resting_ahead queue)
        (sound.resting_distinct queue) next
    · obtain ⟨other,unmatched⟩ := List.forall_mem_cons.mp unmatched
      rw [later.others id unmatched,taken.others (maker ▸ other.symm)]

structure Exact (taker : Side) (limit : Option Int) (quantity : Int) (book : Book) (found : List Match) (left : Int)
    (book' : Book) : Prop where
  /-- The aggressor gets all it wants or all that its limit lets it reach, displayed and hidden. -/
  total : filled found = min quantity (reach taker limit book.view)
  remains : left = quantity - filled found
  prices : found.Pairwise (fun a b => NoBetter taker a.price b.price)
  within : ∀ m ∈ found, reaches taker limit m.price = true
  /-- The slices displayed at one price before the call trade in the order in
      which they rest, before any that is refreshed. Only the last one may trade in part. -/
  slices : ∀ (price : Int) (i : Nat) (order : BookOrder) (m : Match),
    ((book.resting taker.opposite).filter fun order => order.price = price)[i]? = some order →
    (found.filter fun m => m.price = price)[i]? = some m →
    m.maker = order.order_id ∧ m.quantity ≤ order.visible ∧
      (i + 1 < (found.filter fun m => m.price = price).length → m.quantity = order.visible)
  /-- A maker trades at most the slice that it displays at that time. -/
  visible : ∀ (before : List Match) (m : Match) (after : List Match), found = before ++ m :: after →
    ∃ order ∈ book.resting taker.opposite, order.order_id = m.maker ∧ order.price = m.price ∧
      0 < m.quantity ∧ m.quantity ≤ slice order (before.filter fun earlier => earlier.maker = m.maker)
  others : ∀ id, (∀ m ∈ found, m.maker ≠ id) → book'.orders.get? id = book.orders.get? id
  /-- The whole quantity trades where it is executable. -/
  all_or_none : left = 0 ↔ quantity ≤ book.executable taker limit

theorem Executed.total (executed : Executed taker limit quantity left found book book') :
    filled found = min quantity (reach taker limit book.view) := by
  have after := executed.matched.reach
  have nonneg : 0 ≤ reach taker limit book'.view := OrdMap.sum_nonneg fun id order there => by
    have := (executed.sound.view_positive there).1
    unfold reachable
    split_ifs <;> omega
  have remains := executed.remains
  have := executed.nonneg
  by_cases more : 0 < left
  · have := executed.left_eq more
    omega
  · omega

/-- An execution on a sound book is exact, and fails only where the priorities run out. -/
theorem execute_exact (book : Book) (taker : Side) (limit : Option Int) (quantity : Int) (sound : book.Sound)
    (positive : 0 < quantity) (fits : quantity ≤ 9223372036854775807) :
    match (execute taker limit quantity).run book with
    | .ok (found,left) book' => Exact taker limit quantity book found left book'
    | .error e _ => e = .Overflow ∧ 18446744073709551615 < book.next_priority + quantity := by
  cases ran : (execute taker limit quantity).run book with
  | error e book' =>
    obtain ⟨rfl,full⟩ := execute_overflow sound positive ran
    exact ⟨rfl,full fits⟩
  | ok out book' =>
    obtain ⟨found,left⟩ := out
    have executed := (execute_ok sound ran).2
    have worked := execute_works sound ran
    have total := executed.total
    have remains := executed.remains
    refine ⟨total,remains,worked.works.prices,worked.within,fun price i order m => worked.works.slices,
      fun before m after split => ?_,worked.others,?_⟩
    · have member : m ∈ found := by simp [split]
      obtain ⟨order,rests,maker,price⟩ := worked.works.maker member
      exact ⟨order,rests,maker,price,worked.works.positive member,worked.works.visible split rests maker⟩
    · rw [sound.executable_min]
      omega

/-- A buyer of eight meets an iceberg of ten that displays two, and an order of
    three behind it: the iceberg's later slices trade after that order. -/
theorem execute_exact_iceberg :
    ∃ book found book', book.Sound ∧ (execute .Buy (some 100) 8).run book = .ok (found,0) book' ∧
      Exact .Buy (some 100) 8 book found 0 book' ∧
      found.map (fun m => (m.maker,m.quantity)) = [(8,2),(7,3),(8,2),(8,1)] := by
  obtain ⟨book,loads,⟨found,left⟩,book',ran,rfl,makers⟩ : ∃ book,
      try_from ⟨2,[⟨8,.Sell,100,10,2,some 2,0⟩,⟨7,.Sell,100,3,3,none,1⟩]⟩ = .ok book ∧
      ∃ traded book', (execute .Buy (some 100) 8).run book = .ok traded book' ∧ traded.2 = 0 ∧
        traded.1.map (fun m => (m.maker,m.quantity)) = [(8,2),(7,3),(8,2),(8,1)] := by decide +kernel
  have sound := load_sound (sound_start _) rfl (by decide) loads
  have exact := execute_exact book .Buy (some 100) 8 sound (by decide) (by decide)
  rw [ran] at exact
  exact ⟨book,found,book',sound,ran,exact,makers⟩

end Execute
end Book
end Bunting
