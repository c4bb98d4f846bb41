import Mathlib.Tactic

/-!
Numbered delivery: a sender numbers what it sends, and a receiver takes the
numbers in order. Whatever the way it gets from one number to the next, what it
delivers is a part of the log in its order, and what it did not deliver was let
go.
-/

namespace Numbered
variable {M : Type}

/-- What was sent under each number, and the number that comes next. -/
structure Log (M : Type) where
  entries : List (Nat × M)
  top : Nat
  increasing : entries.Pairwise fun a b => a.1 < b.1
  below : ∀ e ∈ entries, e.1 < top

namespace Log
variable {log log' log'' : Log M} {n : Nat} {x y : M} {e : Nat × M}

def start (first : Nat) : Log M := ⟨[],first,.nil,fun _ member => (nomatch member)⟩

def push (log : Log M) (x : M) : Log M where
  entries := log.entries ++ [(log.top,x)]
  top := log.top + 1
  increasing := by
    rw [List.pairwise_append]
    refine ⟨log.increasing,List.pairwise_singleton _ _,fun e member f last => ?_⟩
    rw [List.mem_singleton.mp last]
    exact log.below e member
  below e member := by
    rcases List.mem_append.mp member with old | new
    · exact (log.below e old).trans (Nat.lt_succ_self _)
    · rw [List.mem_singleton.mp new]
      exact Nat.lt_succ_self _

theorem unique (first : (n,x) ∈ log.entries) (second : (n,y) ∈ log.entries) : x = y := by
  have numbers : (log.entries.map Prod.fst).Nodup := by
    rw [List.Nodup,List.pairwise_map]
    exact log.increasing.imp ne_of_lt
  exact (Prod.mk.inj (List.inj_on_of_nodup_map numbers first second rfl)).2

/-- A later state of a log: it has what it had, and more under higher numbers. -/
structure Grows (log log' : Log M) : Prop where
  top : log.top ≤ log'.top
  entries : ∃ more, log'.entries = log.entries ++ more ∧ ∀ e ∈ more, log.top ≤ e.1

theorem Grows.refl (log : Log M) : log.Grows log := ⟨le_rfl,[],(List.append_nil _).symm,fun _ member => (nomatch member)⟩

theorem Grows.mem (grows : log.Grows log') (member : e ∈ log.entries) : e ∈ log'.entries := by
  obtain ⟨_,more,same,_⟩ := grows
  rw [same]
  exact List.mem_append_left _ member

theorem Grows.new (grows : log.Grows log') (member : e ∈ log'.entries) : e ∈ log.entries ∨ log.top ≤ e.1 := by
  obtain ⟨_,more,same,higher⟩ := grows
  rw [same] at member
  exact (List.mem_append.mp member).imp_right (higher e)

theorem Grows.trans (grows : log.Grows log') (later : log'.Grows log'') : log.Grows log'' := by
  obtain ⟨top,more,same,higher⟩ := grows
  obtain ⟨top',more',same',higher'⟩ := later
  refine ⟨top.trans top',more ++ more',by rw [same',same,List.append_assoc],fun e member => ?_⟩
  rcases List.mem_append.mp member with old | new
  · exact higher e old
  · exact top.trans (higher' e new)

theorem grows_push (log : Log M) (x : M) : log.Grows (log.push x) :=
  ⟨Nat.le_succ _,[(log.top,x)],rfl,fun e member => by rw [List.mem_singleton.mp member]⟩

theorem mem_push : e ∈ (log.push x).entries ↔ e ∈ log.entries ∨ e = (log.top,x) := by
  rw [push,List.mem_append,List.mem_singleton]

end Log

/-! ### Taking in order -/

variable {wanted : M → Prop} {log log' : Log M} {gaps gaps' : Nat → Prop} {next : Nat} {delivered : List (Nat × M)} {x : M}

/-- A receiver that waits for `next`: what it delivered is genuine, in order, and all there was but for the gaps. -/
structure Taken (wanted : M → Prop) (log : Log M) (gaps : Nat → Prop) (next : Nat) (delivered : List (Nat × M)) :
    Prop where
  within : next ≤ log.top
  ordered : delivered.Pairwise fun a b => a.1 < b.1
  genuine : ∀ e ∈ delivered, e ∈ log.entries ∧ wanted e.2 ∧ e.1 < next
  accounted : ∀ e ∈ log.entries, e.1 < next → wanted e.2 → e ∈ delivered ∨ gaps e.1

theorem taken_start (first : Nat) : Taken wanted (.start first) gaps first [] :=
  ⟨le_rfl,.nil,fun _ member => (nomatch member),fun _ member => (nomatch member)⟩

namespace Taken

variable (taken : Taken wanted log gaps next delivered)
include taken

theorem grow (grows : log.Grows log') (more : ∀ n, gaps n → gaps' n) :
    Taken wanted log' gaps' next delivered := by
  refine ⟨taken.within.trans grows.top,taken.ordered,fun e member => ?_,fun e member before is_wanted => ?_⟩
  · obtain ⟨inside,is_wanted,before⟩ := taken.genuine e member
    exact ⟨grows.mem inside,is_wanted,before⟩
  · rcases grows.new member with old | new
    · exact (taken.accounted e old before is_wanted).imp_right (more e.1)
    · have bound := taken.within
      omega

theorem deliver (member : (next,x) ∈ log.entries) (is_wanted : wanted x) :
    Taken wanted log gaps (next + 1) (delivered ++ [(next,x)]) := by
  refine ⟨log.below _ member,?_,fun e inside => ?_,fun e inside before is_wanted' => ?_⟩
  · rw [List.pairwise_append]
    refine ⟨taken.ordered,List.pairwise_singleton _ _,fun e inside f last => ?_⟩
    rw [List.mem_singleton.mp last]
    exact (taken.genuine e inside).2.2
  · rcases List.mem_append.mp inside with old | new
    · obtain ⟨genuine,is_wanted,before⟩ := taken.genuine e old
      exact ⟨genuine,is_wanted,before.trans (Nat.lt_succ_self _)⟩
    · rw [List.mem_singleton.mp new]
      exact ⟨member,is_wanted,Nat.lt_succ_self _⟩
  · obtain ⟨n,y⟩ := e
    rcases Nat.lt_succ_iff_lt_or_eq.mp before with earlier | rfl
    · exact (taken.accounted _ inside earlier is_wanted').imp_left (List.mem_append_left _)
    · rw [log.unique inside member]
      exact .inl (List.mem_append_right _ List.mem_cons_self)

theorem pass (member : (next,x) ∈ log.entries) (not_wanted : ¬ wanted x) :
    Taken wanted log gaps (next + 1) delivered := by
  refine ⟨log.below _ member,taken.ordered,fun e inside => ?_,fun e inside before is_wanted => ?_⟩
  · obtain ⟨genuine,is_wanted,before⟩ := taken.genuine e inside
    exact ⟨genuine,is_wanted,before.trans (Nat.lt_succ_self _)⟩
  · obtain ⟨n,y⟩ := e
    rcases Nat.lt_succ_iff_lt_or_eq.mp before with earlier | rfl
    · exact taken.accounted _ inside earlier is_wanted
    · rw [log.unique inside member] at is_wanted
      exact absurd is_wanted not_wanted

theorem fill {after : Nat} (further : next ≤ after)
    (let_go : ∀ n, next ≤ n → n < after → gaps n ∧ n < log.top) : Taken wanted log gaps after delivered := by
  refine ⟨?_,taken.ordered,fun e inside => ?_,fun e inside before is_wanted => ?_⟩
  · rcases Nat.eq_or_lt_of_le further with rfl | more
    · exact taken.within
    · have last := (let_go (after - 1) (by omega) (by omega)).2
      omega
  · obtain ⟨genuine,is_wanted,before⟩ := taken.genuine e inside
    exact ⟨genuine,is_wanted,before.trans_le further⟩
  · rcases Nat.lt_or_ge e.1 next with earlier | later
    · exact taken.accounted e inside earlier is_wanted
    · exact .inr (let_go e.1 later before).1

/-- What was delivered is a part of any part of the log that has all that is wanted. -/
theorem sublist {sent : List (Nat × M)} (part : sent.Sublist log.entries)
    (all : ∀ e ∈ log.entries, wanted e.2 → e ∈ sent) : delivered.Sublist sent := by
  have antisymmetric : Std.Antisymm fun a b : Nat × M => a.1 < b.1 := ⟨fun a b less more => absurd less more.not_gt⟩
  have distinct : delivered.Nodup := taken.ordered.imp fun less same => less.ne (congrArg Prod.fst same)
  have inside : delivered ⊆ sent := fun e member => all e (taken.genuine e member).1 (taken.genuine e member).2.1
  exact List.sublist_of_subperm_of_pairwise (distinct.subperm inside) taken.ordered (log.increasing.sublist part)

end Taken

end Numbered
