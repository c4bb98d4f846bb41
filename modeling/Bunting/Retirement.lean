import Bunting.Orders

/-!
Terminal orders and the counts of live ones. A terminal order waits in the
events of the transition until it is retired; it counts as live until then. The
window of retired orders is bounded, and the oldest leave the records first.
-/

namespace Bunting

/-- A count kept only where it is not zero. -/
def nonzero (n : Nat) : Option Nat := if n = 0 then none else some n

@[simp] theorem nonzero_getD (n : Nat) : (nonzero n).getD 0 = n := by
  unfold nonzero
  split_ifs with zero
  · exact zero.symm
  · rfl

/-- The records of a participant that are not retired. -/
def unretired (ownership : OrdMap OrderId OwnedOrder) (retired : List OrderId) (participant : ParticipantId) : Nat :=
  ownership.sum (fun id owned => if owned.participant_id = participant ∧ id ∉ retired then 1 else 0)

def active (ownership : OrdMap OrderId OwnedOrder) : Nat :=
  ownership.sum (fun _ owned => if owned.state = .Active then 1 else 0)

/-- Each terminal order is retired or pending, once. -/
structure Retirement (pending : List OrderId) (flight : Option OrderId) (ownership : OrdMap OrderId OwnedOrder)
    (retired : List OrderId) (live_orders : OrdMap ParticipantId Nat) : Prop where
  distinct : (retired ++ pending).Nodup
  ended : ∀ id, flight ≠ some id →
    (id ∈ retired ++ pending ↔ ∃ owned, ownership.get? id = some owned ∧ owned.state ≠ .Active)
  flying : ∀ id, flight = some id → id ∉ retired ++ pending
  bounded : retired.length ≤ MAX_RETIRED_ORDERS
  counted : ∀ p, live_orders.get? p = nonzero (unretired ownership retired p)
  capacity : active ownership ≤ MAX_LIVE_ORDERS

section Moves
variable {pending : List OrderId} {flight : Option OrderId} {ownership : OrdMap OrderId OwnedOrder}
  {retired : List OrderId} {live_orders : OrdMap ParticipantId Nat} {id : OrderId} {owned next : OwnedOrder}

theorem unretired_replace (found : ownership.get? id = some owned) (owner : next.participant_id = owned.participant_id)
    (p : ParticipantId) : unretired (ownership.insert id next) retired p = unretired ownership retired p := by
  have moved := ownership.sum_insert
    (fun id owned => if owned.participant_id = p ∧ id ∉ retired then 1 else 0) id next
  rw [found] at moved
  simp only [Option.elim,owner] at moved
  unfold unretired
  omega

theorem active_replace (found : ownership.get? id = some owned) (next : OwnedOrder) :
    active (ownership.insert id next) + (if owned.state = .Active then 1 else 0) =
      active ownership + (if next.state = .Active then 1 else 0) := by
  have moved := ownership.sum_insert (fun _ owned => if owned.state = .Active then 1 else 0) id next
  rw [found] at moved
  exact moved

section
variable (retirement : Retirement pending flight ownership retired live_orders)
include retirement

theorem Retirement.not_ended (found : ownership.get? id = some owned) (live : owned.state = .Active) :
    id ∉ retired ++ pending := by
  by_cases flies : flight = some id
  · exact retirement.flying id flies
  · rw [retirement.ended id flies]
    rintro ⟨other,there,ended⟩
    cases found.symm.trans there
    exact ended live

theorem Retirement.keep (found : ownership.get? id = some owned) (live : owned.state = .Active) (still : next.state = .Active)
    (owner : next.participant_id = owned.participant_id) :
    Retirement pending flight (ownership.insert id next) retired live_orders := by
  refine { retirement with ended := fun j other => ?_, counted := fun p => ?_, capacity := ?_ }
  · rw [retirement.ended j other,OrdMap.get?_insert]
    by_cases here : j = id
    · subst here; simp [found,live,still]
    · rw [if_neg here]
  · rw [unretired_replace found owner]; exact retirement.counted p
  · have moved := active_replace found next
    rw [if_pos live,if_pos still] at moved
    have := retirement.capacity
    omega

theorem Retirement.finish (found : ownership.get? id = some owned) (live : owned.state = .Active) (grounded : flight ≠ some id)
    (done : next.state ≠ .Active) (owner : next.participant_id = owned.participant_id) :
    Retirement (pending ++ [id]) flight (ownership.insert id next) retired live_orders := by
  have fresh := retirement.not_ended found live
  refine ⟨?_,fun j other => ?_,fun j flies => ?_,retirement.bounded,fun p => ?_,?_⟩
  · rw [← List.append_assoc]
    exact retirement.distinct.append (List.nodup_singleton id) (by simpa using fresh)
  · rw [← List.append_assoc,List.mem_append,retirement.ended j other,OrdMap.get?_insert]
    by_cases here : j = id
    · subst here; simp [done]
    · simp [here]
  · have := retirement.flying j flies
    have other : j ≠ id := fun same => grounded (same ▸ flies)
    simp_all
  · rw [unretired_replace found owner]; exact retirement.counted p
  · have moved := active_replace found next
    rw [if_pos live,if_neg done] at moved
    have := retirement.capacity
    omega

end

section
variable (retirement : Retirement pending (some id) ownership retired live_orders)
include retirement

/-- What happens to the record of the order in flight is not seen. -/
theorem Retirement.fly (found : ownership.get? id = some owned) (live : owned.state = .Active)
    (owner : next.participant_id = owned.participant_id) :
    Retirement pending (some id) (ownership.insert id next) retired live_orders := by
  refine { retirement with ended := fun j other => ?_, counted := fun p => ?_, capacity := ?_ }
  · rw [retirement.ended j other,OrdMap.get?_insert_of_ne fun same => other (by rw [same])]
  · rw [unretired_replace found owner]; exact retirement.counted p
  · have moved := active_replace found next
    rw [if_pos live] at moved
    have := retirement.capacity
    split_ifs at moved <;> omega

theorem Retirement.land (found : ownership.get? id = some owned) (live : owned.state = .Active) :
    Retirement pending none ownership retired live_orders := by
  refine { retirement with ended := fun j _ => ?_, flying := fun _ flies => (nomatch flies) }
  by_cases here : j = id
  · subst here
    refine ⟨fun member => absurd member (retirement.flying j rfl),?_⟩
    rintro ⟨other,there,ended⟩
    cases found.symm.trans there
    exact absurd live ended
  · exact retirement.ended j (by simpa using Ne.symm here)

theorem Retirement.crash (found : ownership.get? id = some owned) (done : owned.state ≠ .Active) :
    Retirement (pending ++ [id]) none ownership retired live_orders := by
  have fresh := retirement.flying id rfl
  refine { retirement with distinct := ?_, ended := fun j _ => ?_, flying := fun _ flies => (nomatch flies) }
  · rw [← List.append_assoc]
    exact retirement.distinct.append (List.nodup_singleton id) (by simpa using fresh)
  · by_cases here : j = id
    · subst here
      exact ⟨fun _ => ⟨owned,found,done⟩,fun _ => by simp⟩
    · rw [← retirement.ended j (by simpa using Ne.symm here)]
      simp [here]

end

variable (retirement : Retirement pending none ownership retired live_orders)
include retirement

/-- Retired records with those that are not are all of them. -/
theorem Retirement.size :
    ownership.size = retired.length + ownership.sum (fun id _ => if id ∉ retired then 1 else 0) := by
  have distinct := (List.nodup_append.mp retirement.distinct).1
  have inside : ∀ id ∈ retired, ∃ owned, ownership.get? id = some owned := fun id member => by
    obtain ⟨owned,found,_⟩ := (retirement.ended id (by simp)).mp (List.mem_append_left _ member)
    exact ⟨owned,found⟩
  rw [OrdMap.size_eq_sum,← OrdMap.sum_mem distinct inside,← OrdMap.sum_add]
  refine OrdMap.sum_congr fun id owned _ => ?_
  by_cases member : id ∈ retired <;> simp [member]

theorem Retirement.active_le :
    active ownership ≤ ownership.sum (fun id _ => if id ∉ retired then 1 else 0) := by
  refine OrdMap.sum_le_sum fun id owned found => ?_
  split_ifs with live member
  · exact absurd (List.mem_append_left _ member) (retirement.not_ended found live)
  all_goals omega

/-- A new order takes off where there is room for it. -/
theorem Retirement.take_off (absent : ownership.get? id = none) (live : owned.state = .Active)
    (room : ownership.size - retired.length < MAX_LIVE_ORDERS) :
    Retirement pending (some id) (ownership.insert id owned) retired
      (live_orders.insert owned.participant_id ((live_orders.get? owned.participant_id).getD 0 + 1)) := by
  have fresh : id ∉ retired ++ pending := by
    rw [retirement.ended id (by simp)]
    rintro ⟨other,there,_⟩
    rw [absent] at there
    cases there
  have more (p : ParticipantId) : unretired (ownership.insert id owned) retired p =
      unretired ownership retired p + if owned.participant_id = p then 1 else 0 := by
    have : id ∉ retired := fun member => fresh (List.mem_append_left _ member)
    unfold unretired
    rw [OrdMap.sum_insert_new _ _ absent]
    simp [this]
  refine ⟨retirement.distinct,fun j other => ?_,fun j flies => ?_,retirement.bounded,fun p => ?_,?_⟩
  · rw [retirement.ended j (by simp),OrdMap.get?_insert_of_ne fun same => other (by rw [same])]
  · cases flies; exact fresh
  · rw [OrdMap.get?_insert,retirement.counted,nonzero_getD,more]
    by_cases own : p = owned.participant_id
    · subst own; simp [nonzero]
    · rw [if_neg own,if_neg (Ne.symm own)]
      exact retirement.counted p
  · have size := retirement.size
    have fewer := retirement.active_le
    have : active (ownership.insert id owned) = active ownership + 1 := by
      unfold active
      rw [OrdMap.sum_insert_new _ _ absent,if_pos live]
    omega

end Moves

/-! ### Retiring -/

def outgoing (id : OrderId) (retired : List OrderId) : List OrderId :=
  (retired ++ [id]).take ((retired ++ [id]).length - MAX_RETIRED_ORDERS)

section Retire
variable {pending : List OrderId} {run : RunState} {id : OrderId}

theorem retire_ownership (id : OrderId) (run : RunState) :
    (retire id run).ownership = (outgoing id run.retired).foldl OrdMap.erase run.ownership := rfl

theorem retire_retired (id : OrderId) (run : RunState) : (retire id run).retired =
    (run.retired ++ [id]).drop ((run.retired ++ [id]).length - MAX_RETIRED_ORDERS) := rfl

/-- The window is what it was without those that leave, with the new order last. -/
theorem retire_window (id : OrderId) (retired : List OrderId) :
    ∃ keep, retired = outgoing id retired ++ keep ∧
      (retired ++ [id]).drop ((retired ++ [id]).length - MAX_RETIRED_ORDERS) = keep ++ [id] := by
  have excess : (retired ++ [id]).length - MAX_RETIRED_ORDERS ≤ retired.length := by
    simp only [List.length_append,List.length_singleton,MAX_RETIRED_ORDERS]
    omega
  refine ⟨retired.drop ((retired ++ [id]).length - MAX_RETIRED_ORDERS),?_,?_⟩
  · rw [outgoing,List.take_append_of_le_length excess,List.take_append_drop]
  · rw [List.drop_append_of_le_length excess]

variable (retirement : Retirement (id :: pending) none run.ownership run.retired run.live_orders)
include retirement

theorem Retirement.outgoing_ended :
    ∀ j ∈ outgoing id run.retired, ∀ owned, run.ownership.get? j = some owned → owned.state ≠ .Active := by
  intro j member owned found live
  obtain ⟨keep,window,_⟩ := retire_window id run.retired
  refine retirement.not_ended found live (List.mem_append_left _ ?_)
  rw [window]
  exact List.mem_append_left _ member

private theorem unretired_retire {owned : OwnedOrder} (found : run.ownership.get? id = some owned) (p : ParticipantId) :
    unretired (retire id run).ownership (retire id run).retired p + (if owned.participant_id = p then 1 else 0) =
      unretired run.ownership run.retired p := by
  obtain ⟨keep,window,kept⟩ := retire_window id run.retired
  rw [← retire_retired] at kept
  have fresh : id ∉ run.retired := fun member => by
    have := (List.nodup_append'.mp retirement.distinct).2.2 member
    simp at this
  -- Off the records that leave, not retired now means not retired before and not the order itself.
  have still : unretired (retire id run).ownership (retire id run).retired p =
      (retire id run).ownership.sum (fun j owned =>
        if owned.participant_id = p ∧ j ∉ run.retired ∧ j ≠ id then 1 else 0) := by
    refine OrdMap.sum_congr fun j other there => ?_
    have stays : j ∉ outgoing id run.retired := by
      intro member
      have := OrdMap.get?_foldl_erase run.ownership (outgoing id run.retired) j
      rw [if_pos member,← retire_ownership] at this
      cases this.symm.trans there
    have parts : j ∈ run.retired ↔ j ∈ keep := by
      rw [window,List.mem_append]
      simp [stays]
    rw [kept]
    simp [parts]
  have drops : (retire id run).ownership.sum (fun j owned =>
      if owned.participant_id = p ∧ j ∉ run.retired ∧ j ≠ id then 1 else 0) =
      run.ownership.sum (fun j owned => if owned.participant_id = p ∧ j ∉ run.retired ∧ j ≠ id then 1 else 0) := by
    rw [retire_ownership]
    refine OrdMap.sum_foldl_erase fun j member other _ => if_neg fun ⟨_,outside,_⟩ => outside ?_
    rw [window]
    exact List.mem_append_left _ member
  have one : (if owned.participant_id = p then 1 else 0) =
      run.ownership.sum (fun j owned => if j = id then if owned.participant_id = p then 1 else 0 else 0) := by
    rw [OrdMap.sum_single run.ownership (fun _ owned => if owned.participant_id = p then 1 else 0),found]
    rfl
  rw [still,drops,one,unretired,← OrdMap.sum_add]
  refine OrdMap.sum_congr fun j other _ => ?_
  by_cases here : j = id
  · subst here; simp [fresh]
  · simp [here]

private theorem drop_live_counted (p : ParticipantId) :
    (drop_live id run).get? p = nonzero (unretired (retire id run).ownership (retire id run).retired p) := by
  obtain ⟨owned,found,_⟩ := (retirement.ended id (by simp)).mp (by simp)
  have fewer := unretired_retire retirement found
  have own := fewer owned.participant_id
  rw [if_pos rfl] at own
  have count := retirement.counted owned.participant_id
  rw [nonzero,if_neg (by omega)] at count
  unfold drop_live
  rw [found]
  simp only [count]
  by_cases here : p = owned.participant_id
  · subst here
    have left : unretired run.ownership run.retired owned.participant_id - 1 =
        unretired (retire id run).ownership (retire id run).retired owned.participant_id := by omega
    rw [left]
    unfold nonzero
    split_ifs
    · exact OrdMap.get?_erase_self _ _
    · exact OrdMap.get?_insert_self _ _ _
  · have others : (if unretired run.ownership run.retired owned.participant_id - 1 = 0 then
        run.live_orders.erase owned.participant_id
        else run.live_orders.insert owned.participant_id
          (unretired run.ownership run.retired owned.participant_id - 1)).get? p = run.live_orders.get? p := by
      split_ifs
      · exact OrdMap.get?_erase_of_ne _ here
      · exact OrdMap.get?_insert_of_ne here
    rw [others,retirement.counted,← fewer p,if_neg (Ne.symm here),add_zero]

theorem Retirement.retire :
    Retirement pending none (retire id run).ownership (retire id run).retired (retire id run).live_orders := by
  obtain ⟨keep,window,kept⟩ := retire_window id run.retired
  rw [← retire_retired] at kept
  have all : run.retired ++ id :: pending = outgoing id run.retired ++ (keep ++ [id] ++ pending) := by
    conv_lhs => rw [window]
    simp
  have distinct := retirement.distinct
  rw [all] at distinct
  refine ⟨?_,fun j _ => ?_,fun _ flies => (nomatch flies),?_,drop_live_counted retirement,?_⟩
  · rw [kept]; exact (List.nodup_append.mp distinct).2.1
  · have lookup := OrdMap.get?_foldl_erase run.ownership (outgoing id run.retired) j
    have before := retirement.ended j (by simp)
    rw [all,List.mem_append] at before
    rw [kept,retire_ownership,lookup]
    by_cases member : j ∈ outgoing id run.retired
    · rw [if_pos member]
      refine ⟨fun later => absurd later ?_,fun ⟨_,there,_⟩ => (nomatch there)⟩
      exact fun later => (List.nodup_append'.mp distinct).2.2 member later
    · rw [if_neg member,← before]
      simp [member]
  · rw [retire_retired,List.length_drop]
    omega
  · have same : active ((outgoing id run.retired).foldl OrdMap.erase run.ownership) = active run.ownership :=
      OrdMap.sum_foldl_erase fun j member owned found => if_neg (retirement.outgoing_ended j member owned found)
    rw [retire_ownership,same]
    exact retirement.capacity

end Retire

end Bunting
