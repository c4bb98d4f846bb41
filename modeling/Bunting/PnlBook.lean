import Bunting.MarketTypes

/-!
The cost basis of a desk, in ticks times lots. A partial close takes the closed
lots' share of the gain and of the cost, and each share is truncated: together
they can miss a tick-lot.
-/

namespace Bunting

/-- The nearest signed number of so many bits. -/
def saturating (bits : Nat) (x : Int) : Int := max (-2 ^ (bits - 1)) (min x (2 ^ (bits - 1) - 1))

/-- Arithmetic without bounds. -/
def unbounded (_ : Nat) (x : Int) : Int := x

structure PnlBook where
  position : Int := 0
  cost_tick_lots : Int := 0
  cost_known : Bool := false
  realized_tick_lots : Int := 0
  fees_minor : Int := 0
  last_fill_sequence : Nat := 0
  deriving DecidableEq

structure PnlFill where
  side : Side
  price : Int
  quantity : Int
  fee : Int
  sequence : Nat

def PnlFill.delta (fill : PnlFill) : Int :=
  match fill.side with
  | .Buy => fill.quantity
  | .Sell => -fill.quantity

namespace PnlBook

def known : PnlBook := { cost_known := true }

section Fill
variable (clamp : Nat → Int → Int)

/-- The share of `numerator` that `lots` of the open lots carry. -/
def share (numerator lots opened : Int) : Int :=
  if opened = 0 then 0 else (clamp 128 (numerator * lots)).tdiv opened

/-- Closes lots of a position: the gain over their cost is realized. -/
def close (book : PnlBook) (price closed opened : Int) : PnlBook :=
  if book.cost_known then
    let sign : Int := if 0 < book.position then 1 else -1
    let gain := share clamp (clamp 128 (clamp 128 (price * opened) - book.cost_tick_lots)) closed opened
    { book with
      realized_tick_lots := clamp 128 (book.realized_tick_lots + sign * gain)
      cost_tick_lots := book.cost_tick_lots - share clamp book.cost_tick_lots closed opened }
  else book

/-- Opens a position or adds to it: the new lots join at their price. -/
def join (book : PnlBook) (price lots : Int) : PnlBook :=
  let book := if book.position = 0 then { book with cost_known := true, cost_tick_lots := 0 } else book
  if book.cost_known then { book with cost_tick_lots := clamp 128 (book.cost_tick_lots + price * lots) } else book

def fill (book : PnlBook) (fill : PnlFill) : PnlBook :=
  let book := { book with
    last_fill_sequence := max book.last_fill_sequence fill.sequence
    fees_minor := clamp 128 (book.fees_minor + fill.fee) }
  let delta := fill.delta
  if delta = 0 then book
  else
    let lots := |delta|
    let opened := |book.position|
    let position := clamp 64 (book.position + delta)
    if book.position = 0 ∨ (0 < delta ↔ 0 < book.position) then { join clamp book fill.price lots with position }
    else
      let closed := { close clamp book fill.price (min lots opened) opened with position }
      if opened < lots then { closed with cost_known := true, cost_tick_lots := fill.price * (lots - opened) }
      else if position = 0 then { closed with cost_known := true, cost_tick_lots := 0 }
      else closed

def fills (all : List PnlFill) : PnlBook := all.foldl (fill clamp) known

end Fill

/-- What fills made in tick-lots: those sold less those bought. -/
def cash (all : List PnlFill) : Int := (all.map fun fill => -(fill.delta * fill.price)).sum

/-- A book accounts for some cash: it is what was realized, less what the open lots cost. -/
def Accounts (book : PnlBook) (cash : Int) : Prop :=
  cash = book.realized_tick_lots - book.position.sign * book.cost_tick_lots

/-- A fill that closes part of a position splits its cost exactly: the closed lots' share of it is whole, or the gain is on
    the other side of zero. -/
def Splits (book : PnlBook) (fill : PnlFill) : Prop :=
  fill.delta * book.position < 0 → |fill.delta| < |book.position| →
    |book.position| ∣ book.cost_tick_lots * |fill.delta| ∨
      (fill.price * |book.position| - book.cost_tick_lots) * book.cost_tick_lots < 0

instance (book : PnlBook) (cash : Int) : Decidable (book.Accounts cash) := inferInstanceAs (Decidable (_ = _))

instance (book : PnlBook) (fill : PnlFill) : Decidable (book.Splits fill) := inferInstanceAs (Decidable (_ → _ → _ ∨ _))

/-- Two truncated quotients add up to the quotient of the sum, where that is whole, exactly if they are whole or
    of different signs. -/
theorem tdiv_add_tdiv_iff {a b n o : Int} (positive : 0 < o) (whole : a + b = n * o) :
    a.tdiv o + b.tdiv o = n ↔ o ∣ b ∨ a * b < 0 := by
  have left := Int.mul_tdiv_add_tmod a o
  have right := Int.mul_tdiv_add_tmod b o
  have rest : a.tmod o + b.tmod o = o * (n - (a.tdiv o + b.tdiv o)) := by linarith
  have signs (x : Int) : (0 ≤ x → 0 ≤ x.tmod o) ∧ (x ≤ 0 → x.tmod o ≤ 0) :=
    ⟨Int.tmod_nonneg o,fun neg => by have := Int.tmod_nonneg o (neg_nonneg.mpr neg); rw [Int.neg_tmod] at this; omega⟩
  have bound (x : Int) : -o < x.tmod o ∧ x.tmod o < o := ⟨Int.lt_tmod_of_pos x positive,Int.tmod_lt_of_pos x positive⟩
  have add_up (small : |a.tmod o + b.tmod o| < o) : a.tdiv o + b.tdiv o = n := by
    have none := Int.eq_zero_of_abs_lt_dvd ⟨_,rest⟩ small
    rw [rest,mul_eq_zero] at none
    omega
  constructor
  · intro same
    rw [same,sub_self,mul_zero] at rest
    rcases lt_trichotomy (b.tmod o) 0 with less | none | more
    · have := (signs a).2
      have := (signs b).1
      exact .inr (mul_neg_of_pos_of_neg (by omega) (by omega))
    · exact .inl (Int.dvd_of_tmod_eq_zero none)
    · have := (signs a).1
      have := (signs b).2
      exact .inr (mul_neg_of_neg_of_pos (by omega) (by omega))
  · have := bound a
    have := bound b
    rintro (divides | differ)
    · have none := Int.tmod_eq_zero_of_dvd divides
      exact add_up (abs_lt.mpr (by omega))
    · rcases mul_neg_iff.mp differ with ⟨pos,neg⟩ | ⟨neg,pos⟩
      · have := (signs a).1 pos.le
        have := (signs b).2 neg.le
        exact add_up (abs_lt.mpr (by omega))
      · have := (signs a).2 neg.le
        have := (signs b).1 pos.le
        exact add_up (abs_lt.mpr (by omega))

section Close
variable {book : PnlBook} {price cost lots opened : Int} {f : PnlFill} {all : List PnlFill}

theorem share_all (numerator : Int) (positive : 0 < opened) : share unbounded numerator opened opened = numerator := by
  rw [share,if_neg positive.ne']
  exact Int.mul_tdiv_cancel _ positive.ne'

/-- The shares of gain and cost make up the price of the closed lots, or miss it. -/
theorem shares_iff (positive : 0 < opened) (some : 0 < lots) :
    share unbounded (price * opened - cost) lots opened + share unbounded cost lots opened = price * lots ↔
      opened ∣ cost * lots ∨ (price * opened - cost) * cost < 0 := by
  simp only [share,if_neg positive.ne',unbounded]
  rw [tdiv_add_tdiv_iff positive (by ring)]
  have scaled : (price * opened - cost) * lots * (cost * lots) = (price * opened - cost) * cost * (lots * lots) := by ring
  rw [scaled,← neg_pos,← neg_mul,mul_pos_iff_of_pos_right (mul_pos some some),neg_pos]

/-- Lots that open a position or add to it are accounted for at their price. -/
theorem join_accounts {position cost realized delta price : Int} (nonzero : delta ≠ 0)
    (opens : position = 0 ∨ (0 < delta ↔ 0 < position)) :
    realized - position.sign * cost - delta * price =
      realized - (position + delta).sign * ((if position = 0 then 0 else cost) + price * |delta|) := by
  by_cases flat : position = 0
  · subst flat
    have all := Int.sign_mul_abs delta
    rw [if_pos rfl,zero_add,zero_add,Int.sign_zero,mul_left_comm,all]
    ring
  · rw [if_neg flat]
    rcases lt_or_gt_of_ne nonzero with neg | pos
    · rw [Int.sign_eq_neg_one_of_neg (show position < 0 by omega),Int.sign_eq_neg_one_of_neg (by omega),abs_of_neg neg]
      ring
    · rw [Int.sign_eq_one_of_pos (show 0 < position by omega),Int.sign_eq_one_of_pos (by omega),abs_of_pos pos]
      ring

/-- A fill keeps a book's accounts exactly if it splits the cost. -/
theorem fill_accounts_iff (known : book.cost_known = true) (positive : 0 < f.quantity) :
    (fill unbounded book f).cost_known = true ∧ ((fill unbounded book f).Accounts
      (book.realized_tick_lots - book.position.sign * book.cost_tick_lots - f.delta * f.price) ↔ book.Splits f) := by
  obtain ⟨position,cost,_,realized,fees,last⟩ := book
  cases known
  have nonzero : f.delta ≠ 0 := by
    unfold PnlFill.delta
    split <;> omega
  simp only [fill,if_neg nonzero,Accounts,Splits,unbounded]
  generalize f.delta = delta at *
  generalize f.price = price at *
  by_cases opens : position = 0 ∨ (0 < delta ↔ 0 < position)
  · have apart : ¬ delta * position < 0 := fun less => by
      rcases mul_neg_iff.mp less with ⟨pos,neg⟩ | ⟨neg,pos⟩ <;> omega
    have joins := @join_accounts position cost realized delta price nonzero opens
    simp only [if_pos opens,apart,false_implies,iff_true,join,unbounded]
    by_cases flat : position = 0
    · simp only [if_pos flat,if_true] at joins ⊢
      exact ⟨trivial,joins⟩
    · simp only [if_neg flat,if_true] at joins ⊢
      exact ⟨trivial,joins⟩
  · -- The fill closes lots of a position of sign `s`.
    obtain ⟨s,o,l,unit,some,some_open,rfl,rfl⟩ : ∃ s o l : Int, (s = 1 ∨ s = -1) ∧ 0 < l ∧ 0 < o ∧ position = s * o ∧
        delta = -(s * l) := by
      rcases lt_or_gt_of_ne nonzero with neg | pos
      · exact ⟨1,position,-delta,.inl rfl,by omega,by omega,by ring,by ring⟩
      · exact ⟨-1,-position,delta,.inr rfl,by omega,by omega,by ring,by ring⟩
    have sizes : |s * o| = o ∧ |-(s * l)| = l ∧ (s * o).sign = s ∧ (if 0 < s * o then (1 : Int) else -1) = s ∧
        (s * o + -(s * l)).sign = s * (o - l).sign ∧ -(s * l) * (s * o) < 0 := by
      have abs_unit : |s| = 1 := by rcases unit with rfl | rfl <;> rfl
      have sign_unit : s.sign = s := by rcases unit with rfl | rfl <;> rfl
      have square : s * s = 1 := by rcases unit with rfl | rfl <;> rfl
      refine ⟨by rw [abs_mul,abs_unit,one_mul,abs_of_pos some_open],
        by rw [abs_neg,abs_mul,abs_unit,one_mul,abs_of_pos some],
        by rw [Int.sign_mul,sign_unit,Int.sign_eq_one_of_pos some_open,mul_one],?_,?_,?_⟩
      · rcases unit with rfl | rfl
        · exact if_pos (by omega)
        · exact if_neg (by omega)
      · rw [show s * o + -(s * l) = s * (o - l) by ring,Int.sign_mul,sign_unit]
      · rw [show -(s * l) * (s * o) = -(s * s * (l * o)) by ring,square,one_mul]
        exact neg_neg_of_pos (mul_pos some some_open)
    obtain ⟨opened,lots,side,sign,after,against⟩ := sizes
    simp only [if_neg opens,opened,lots,side,sign,against,close,if_true,unbounded,true_implies]
    rcases lt_trichotomy o l with flips | rfl | part
    · simp only [if_pos flips,min_eq_right flips.le,share_all _ some_open,flips.not_gt,false_implies,iff_true,after,
        Int.sign_eq_neg_one_of_neg (sub_neg.mpr flips)]
      exact ⟨trivial,by ring⟩
    · have flat : s * o + -(s * o) = 0 := by ring
      simp only [lt_irrefl,if_false,if_true,min_self,share_all _ some_open,false_implies,iff_true,flat,Int.sign_zero]
      exact ⟨trivial,by ring⟩
    · have held : ¬ s * o + -(s * l) = 0 := by
        rcases unit with rfl | rfl <;> omega
      simp only [part.not_gt,if_false,if_neg held,min_eq_left part.le,part,true_implies,after,
        Int.sign_eq_one_of_pos (sub_pos.mpr part),mul_one,true_and]
      rw [← shares_iff some_open some]
      rcases unit with rfl | rfl
      · constructor <;> intro same <;> linarith
      · constructor <;> intro same <;> linarith

theorem fills_known (positive : ∀ f ∈ all, 0 < f.quantity) : (fills unbounded all).cost_known = true := by
  induction all using List.reverseRecOn with
  | nil => rfl
  | append_singleton all f ih =>
    rw [fills,List.foldl_append]
    exact (fill_accounts_iff (ih fun g member => positive g (by simp [member])) (positive f (by simp))).1

/-- As long as nothing saturates, the book accounts for the cash of the fills after each of them exactly if every fill
    splits the cost. -/
theorem cost_basis_is_exact_iff (positive : ∀ f ∈ all, 0 < f.quantity)
    (fits : ∀ n ≤ all.length, fills saturating (all.take n) = fills unbounded (all.take n)) :
    (∀ n ≤ all.length, (fills saturating (all.take n)).Accounts (cash (all.take n))) ↔
      ∀ n (inside : n < all.length), (fills saturating (all.take n)).Splits all[n] := by
  have step (n : Nat) (inside : n < all.length) (accounts : (fills saturating (all.take n)).Accounts (cash (all.take n))) :
      (fills saturating (all.take (n + 1))).Accounts (cash (all.take (n + 1))) ↔
        (fills saturating (all.take n)).Splits all[n] := by
    have next := List.take_concat_get' all n inside
    have money : cash (all.take (n + 1)) = cash (all.take n) - all[n].delta * all[n].price := by
      rw [← next,cash,List.map_append,List.sum_append]
      simp [cash,sub_eq_add_neg]
    rw [fits _ inside.le] at accounts ⊢
    rw [fits _ inside,money,accounts,← next,fills,List.foldl_append]
    exact (fill_accounts_iff (fills_known fun g member => positive g (List.mem_of_mem_take member))
      (positive _ (List.getElem_mem inside))).2
  constructor
  · exact fun accounts n inside => (step n inside (accounts n inside.le)).mp (accounts (n + 1) inside)
  · intro splits n
    induction n with
    | zero => exact fun _ => rfl
    | succ n ih => exact fun inside => (step n inside (ih (Nat.le_of_succ_le inside))).mpr (splits n inside)

/-- A sale of one of two lots bought at 100 splits their cost. -/
theorem cost_basis_is_exact_of_even_lots :
    let all : List PnlFill := [⟨.Buy,100,2,0,1⟩,⟨.Sell,105,1,0,2⟩]
    fills saturating all = ⟨1,100,true,5,0,2⟩ ∧
      ∀ n ≤ all.length, (fills saturating (all.take n)).Accounts (cash (all.take n)) :=
  ⟨by decide +kernel,(cost_basis_is_exact_iff (by decide) (by decide +kernel)).mpr (by decide +kernel)⟩

/-- Two lots bought at 1 and at 2, one sold at 10: the gain of eight and a half and the cost of one and a half are both
    cut, so that the book misses one of the seven tick-lots that the fills made. -/
theorem partial_close_loses_a_tick_lot :
    let all : List PnlFill := [⟨.Buy,1,1,0,1⟩,⟨.Buy,2,1,0,2⟩,⟨.Sell,10,1,0,3⟩]
    (∀ f ∈ all, 0 < f.quantity) ∧
      (∀ n ≤ all.length, fills saturating (all.take n) = fills unbounded (all.take n)) ∧
      cash all = 7 ∧ fills saturating all = ⟨1,2,true,8,0,3⟩ ∧ ¬ (fills saturating all).Accounts (cash all) := by
  decide +kernel

end Close

end PnlBook
end Bunting
