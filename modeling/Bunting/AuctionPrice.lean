import Bunting.BookRecord

/-!
The rule of the auction price. The sweep is the first maximum, in ascending
order, of a lexicographic rank: volume, then balance, then nearness to the
reference. No price on the whole axis has more volume.
-/

namespace Bunting
namespace Book

/-- The volume that trades at a price: the bids at or above it against the offers at or below it. -/
def matched (view : OrdMap OrderId Resting) (price : Int) : Int :=
  min (reach .Sell (some price) view) (reach .Buy (some price) view)

/-- The volume that trades is in range, whatever the price. -/
def Fits (book : Book) : Prop := ∀ entry ∈ book.view.entries, matched book.view entry.2.price ≤ 9223372036854775807

instance (book : Book) : Decidable book.Fits := inferInstanceAs (Decidable (∀ entry ∈ book.view.entries, _))

/-- Demand and supply at a price are this far apart. -/
def imbalance (view : OrdMap OrderId Resting) (price : Int) : Int :=
  |reach .Sell (some price) view - reach .Buy (some price) view|

/-- One price is as good as another for an auction: more volume, then less
    imbalance, then nearer the reference, then lower. -/
def Preferred (reference : Int) (view : OrdMap OrderId Resting) (price other : Int) : Prop :=
  matched view other < matched view price ∨ (matched view other = matched view price ∧
    (imbalance view price < imbalance view other ∨ (imbalance view price = imbalance view other ∧
      (|price - reference| < |other - reference| ∨ (|price - reference| = |other - reference| ∧ price ≤ other)))))

def Rests (view : OrdMap OrderId Resting) (price : Int) : Prop := ∃ id order, view.get? id = some order ∧ order.price = price

/-! ### The sweep -/

def total (levels : List (Int × Level)) : Int := (levels.map (fun e => e.2.total)).sum

def demand (bids : List (Int × Level)) (price : Int) : Int := total (bids.filter (fun e => price ≤ e.1))

def supply (asks : List (Int × Level)) (price : Int) : Int := total (asks.filter (fun e => e.1 ≤ price))

section Sweep
variable {reference price : Int} {bids asks low high levels : List (Int × Level)} {best : Option Candidate}
  {prices : List Int}

/-- The price is the price of a level of one of the lists. -/
def Priced (bids asks : List (Int × Level)) (price : Int) : Prop := price ∈ bids.map Prod.fst ∨ price ∈ asks.map Prod.fst

theorem lowest_priced (low : lowest bids asks = some price) : Priced bids asks price := by
  unfold Priced
  unfold lowest at low
  split at low
  · split_ifs at low <;> cases low <;> simp
  · cases low; simp
  · cases low; simp
  · cases low

theorem total_append (low high : List (Int × Level)) : total (low ++ high) = total low + total high := by
  simp [total]

theorem demand_split (below : ∀ e ∈ low, e.1 < price) (above : ∀ e ∈ high, price ≤ e.1) :
    demand (low ++ high) price = total high := by
  have none : low.filter (fun e => price ≤ e.1) = [] :=
    List.filter_eq_nil_iff.mpr fun e member => by simpa using below e member
  have all : high.filter (fun e => price ≤ e.1) = high := List.filter_eq_self.mpr fun e member => by simpa using above e member
  rw [demand,List.filter_append,none,all,List.nil_append]

theorem supply_split (below : ∀ e ∈ low, e.1 ≤ price) (above : ∀ e ∈ high, price < e.1) :
    supply (low ++ high) price = total low := by
  have all : low.filter (fun e => e.1 ≤ price) = low := List.filter_eq_self.mpr fun e member => by simpa using below e member
  have none : high.filter (fun e => e.1 ≤ price) = [] :=
    List.filter_eq_nil_iff.mpr fun e member => by simpa using above e member
  rw [supply,List.filter_append,none,all,List.append_nil]

/-- The levels at the lowest price are taken off. -/
theorem take_level_split (sorted : levels.Pairwise (fun a b => a.1 < b.1)) (least : ∀ e ∈ levels, price ≤ e.1) :
    ∃ here, levels = here ++ (take_level price levels).2 ∧ (take_level price levels).1 = total here ∧
      (∀ e ∈ here, e.1 = price) ∧ (∀ e ∈ (take_level price levels).2, price < e.1) ∧
      (price ∈ levels.map Prod.fst → here ≠ []) := by
  cases levels with
  | nil => exact ⟨[],rfl,rfl,by simp,by simp [take_level],by simp⟩
  | cons e rest =>
    obtain ⟨first,_⟩ := List.pairwise_cons.mp sorted
    simp only [take_level]
    split_ifs with same
    · refine ⟨[e],rfl,by simp [total],by simpa using same,fun f member => ?_,by simp⟩
      rw [← same]
      exact first f member
    · have above : price < e.1 := lt_of_le_of_ne (least e (by simp)) (Ne.symm same)
      have rest_above (f : Int × Level) (member : f ∈ rest) : price < f.1 := above.trans (first f member)
      refine ⟨[],rfl,rfl,by simp,fun f member => ?_,fun member => ?_⟩
      · rcases List.mem_cons.mp member with rfl | later
        · exact above
        · exact rest_above f later
      · obtain ⟨f,inside,here⟩ := List.mem_map.mp member
        rcases List.mem_cons.mp inside with rfl | later
        · exact absurd here same
        · exact absurd here (rest_above f later).ne'

theorem lowest_le (bids_sorted : bids.Pairwise (fun a b => a.1 < b.1)) (asks_sorted : asks.Pairwise (fun a b => a.1 < b.1))
    (low : lowest bids asks = some price) : (∀ e ∈ bids, price ≤ e.1) ∧ ∀ e ∈ asks, price ≤ e.1 := by
  have least {e : Int × Level} {rest : List (Int × Level)} (sorted : (e :: rest).Pairwise (fun a b => a.1 < b.1))
      (below : price ≤ e.1) : ∀ f ∈ e :: rest, price ≤ f.1 := by
    intro f member
    rcases List.mem_cons.mp member with rfl | later
    · exact below
    · exact below.trans ((List.pairwise_cons.mp sorted).1 f later).le
  unfold lowest at low
  split at low
  · split_ifs at low with first
    · cases low
      exact ⟨least bids_sorted le_rfl,least asks_sorted first⟩
    · cases low
      exact ⟨least bids_sorted (not_le.mp first).le,least asks_sorted le_rfl⟩
  · cases low
    exact ⟨least bids_sorted le_rfl,by simp⟩
  · cases low
    exact ⟨by simp,least asks_sorted le_rfl⟩
  · cases low

theorem lowest_none (low : lowest bids asks = none) : bids = [] ∧ asks = [] := by
  unfold lowest at low
  split at low
  · cases low
  · cases low
  · cases low
  · exact ⟨rfl,rfl⟩

/-- The candidate after one more price. -/
def consider (reference : Int) (bids asks : List (Int × Level)) (best : Option Candidate) (price : Int) :
    Option Candidate :=
  if min (demand bids price) (supply asks price) > 0 then
    Candidate.choose reference ⟨price,min (demand bids price) (supply asks price),
      |demand bids price - supply asks price|⟩ best
  else best

/-- The sweep considers the prices ahead of it in turn, each with the whole demand and supply. -/
theorem sweep_eq {fuel : Nat} {seen_bids seen_asks ahead_bids ahead_asks : List (Int × Level)}
    (bids_sorted : ahead_bids.Pairwise (fun a b => a.1 < b.1)) (asks_sorted : ahead_asks.Pairwise (fun a b => a.1 < b.1))
    (apart : ∀ e ∈ seen_bids ++ seen_asks, ∀ f ∈ ahead_bids ++ ahead_asks, e.1 < f.1)
    (enough : ahead_bids.length + ahead_asks.length ≤ fuel) :
    ∃ ahead : List Int, ahead.Pairwise (· < ·) ∧ (∀ price, price ∈ ahead ↔ Priced ahead_bids ahead_asks price) ∧
      sweep reference (total (seen_bids ++ ahead_bids)) fuel ahead_bids ahead_asks (total seen_bids) (total seen_asks) best =
        ahead.foldl (consider reference (seen_bids ++ ahead_bids) (seen_asks ++ ahead_asks)) best := by
  induction fuel generalizing seen_bids seen_asks ahead_bids ahead_asks best with
  | zero =>
    obtain rfl : ahead_bids = [] := List.length_eq_zero_iff.mp (by omega)
    obtain rfl : ahead_asks = [] := List.length_eq_zero_iff.mp (by omega)
    exact ⟨[],.nil,by simp [Priced],rfl⟩
  | succ fuel ih =>
    unfold sweep
    cases low : lowest ahead_bids ahead_asks with
    | none =>
      obtain ⟨rfl,rfl⟩ := lowest_none low
      exact ⟨[],.nil,by simp [Priced],rfl⟩
    | some price =>
      obtain ⟨bids_least,asks_least⟩ := lowest_le bids_sorted asks_sorted low
      obtain ⟨bids_here,bids_split,bids_total,bids_at,bids_above,bids_taken⟩ := take_level_split bids_sorted bids_least
      obtain ⟨asks_here,asks_split,asks_total,asks_at,asks_above,asks_taken⟩ := take_level_split asks_sorted asks_least
      have lowest_here := lowest_priced low
      have before (e : Int × Level) (member : e ∈ seen_bids ++ seen_asks) : e.1 < price := by
        rcases lowest_here with bid | ask
        · obtain ⟨f,inside,rfl⟩ := List.mem_map.mp bid
          exact apart e member f (List.mem_append_left _ inside)
        · obtain ⟨f,inside,rfl⟩ := List.mem_map.mp ask
          exact apart e member f (List.mem_append_right _ inside)
      have fewer : bids_here ≠ [] ∨ asks_here ≠ [] := lowest_here.imp bids_taken asks_taken
      simp only
      generalize take_level price ahead_bids = bid at *
      generalize take_level price ahead_asks = ask at *
      subst bids_split asks_split
      have demand_here : demand (seen_bids ++ (bids_here ++ bid.2)) price =
          total (seen_bids ++ (bids_here ++ bid.2)) - total seen_bids := by
        have whole := total_append seen_bids (bids_here ++ bid.2)
        rw [demand_split (fun e member => before e (List.mem_append_left _ member)) bids_least]
        omega
      have supply_here : supply (seen_asks ++ (asks_here ++ ask.2)) price = total seen_asks + ask.1 := by
        rw [← List.append_assoc,supply_split ?_ asks_above,total_append,asks_total]
        intro e member
        rcases List.mem_append.mp member with old | new
        · exact (before e (List.mem_append_right _ old)).le
        · exact (asks_at e new).le
      rw [← demand_here,← supply_here]
      have upto (e : Int × Level) (member : e ∈ (seen_bids ++ bids_here) ++ (seen_asks ++ asks_here)) : e.1 ≤ price := by
        simp only [List.mem_append] at member
        rcases member with (old | new) | (old | new)
        · exact (before e (List.mem_append_left _ old)).le
        · exact (bids_at e new).le
        · exact (before e (List.mem_append_right _ old)).le
        · exact (asks_at e new).le
      have above (e : Int × Level) (member : e ∈ bid.2 ++ ask.2) : price < e.1 :=
        (List.mem_append.mp member).elim (bids_above e) (asks_above e)
      have shorter : 0 < bids_here.length + asks_here.length := by
        rcases fewer with some | some <;> have := List.length_pos_iff.mpr some <;> omega
      simp only [List.length_append] at enough
      have assoc_bids : seen_bids ++ (bids_here ++ bid.2) = seen_bids ++ bids_here ++ bid.2 := (List.append_assoc ..).symm
      have assoc_asks : seen_asks ++ (asks_here ++ ask.2) = seen_asks ++ asks_here ++ ask.2 := (List.append_assoc ..).symm
      obtain ⟨ahead,sorted,priced,swept⟩ := @ih
        (consider reference (seen_bids ++ (bids_here ++ bid.2)) (seen_asks ++ (asks_here ++ ask.2)) best price) _ _ _ _
        (List.pairwise_append.mp bids_sorted).2.1 (List.pairwise_append.mp asks_sorted).2.1
        (fun e member f later => (upto e member).trans_lt (above f later)) (by omega)
      refine ⟨price :: ahead,List.pairwise_cons.mpr ⟨fun other member => ?_,sorted⟩,fun other => ?_,?_⟩
      · rcases (priced other).mp member with bid | ask
        · obtain ⟨e,inside,rfl⟩ := List.mem_map.mp bid
          exact above e (List.mem_append_left _ inside)
        · obtain ⟨e,inside,rfl⟩ := List.mem_map.mp ask
          exact above e (List.mem_append_right _ inside)
      · simp only [List.mem_cons,priced,Priced,List.map_append,List.mem_append] at lowest_here ⊢
        constructor
        · rintro (rfl | bid | ask)
          · exact lowest_here
          · exact .inl (.inr bid)
          · exact .inr (.inr ask)
        · rintro ((here | bid) | (here | ask))
          · obtain ⟨e,inside,rfl⟩ := List.mem_map.mp here
            exact .inl (bids_at e inside)
          · exact .inr (.inl bid)
          · obtain ⟨e,inside,rfl⟩ := List.mem_map.mp here
            exact .inl (asks_at e inside)
          · exact .inr (.inr ask)
      · have supplies : supply (seen_asks ++ asks_here ++ ask.2) price = total (seen_asks ++ asks_here) := by
          rw [← assoc_asks,supply_here,asks_total,total_append]
        rw [assoc_bids,assoc_asks] at swept ⊢
        rw [List.foldl_cons,← swept,bids_total,← total_append]
        unfold consider
        rw [supplies]

/-- What a price trades, as a candidate. -/
def candidate (bids asks : List (Int × Level)) (price : Int) : Candidate :=
  ⟨price,min (demand bids price) (supply asks price),|demand bids price - supply asks price|⟩

def rank (reference : Int) (bids asks : List (Int × Level)) (price : Int) : Int ×ₗ Int ×ₗ Int :=
  toLex (min (demand bids price) (supply asks price),
    toLex (-|demand bids price - supply asks price|,-|price - reference|))

theorem better_iff {other : Int} :
    Candidate.better reference (candidate bids asks price) (candidate bids asks other) ↔
      rank reference bids asks other < rank reference bids asks price := by
  simp only [Candidate.better,candidate,rank,Prod.Lex.toLex_lt_toLex]
  omega

/-- The prices considered in turn leave the first one of the greatest rank among those that trade. -/
theorem foldl_consider (reference : Int) (bids asks : List (Int × Level)) (prices : List Int) :
    prices.foldl (consider reference bids asks) none =
      ((prices.filter fun price => 0 < min (demand bids price) (supply asks price)).argmax
        (rank reference bids asks)).map (candidate bids asks) := by
  induction prices using List.reverseRecOn with
  | nil => rfl
  | append_singleton prices price ih =>
    rw [List.foldl_append,List.filter_append,List.foldl_cons,List.foldl_nil,ih]
    unfold consider
    by_cases trades : 0 < min (demand bids price) (supply asks price)
    · rw [if_pos trades,List.filter_cons,if_pos (by simpa using trades),List.filter_nil,List.argmax_concat]
      cases chosen : (prices.filter fun price => 0 < min (demand bids price) (supply asks price)).argmax
          (rank reference bids asks) with
      | none => rfl
      | some other =>
        change (if Candidate.better reference (candidate bids asks price) (candidate bids asks other) then
          some (candidate bids asks price) else some (candidate bids asks other)) = _
        by_cases better : rank reference bids asks other < rank reference bids asks price
        · simp only [if_pos better,if_pos (better_iff.mpr better),Option.map_some]
        · simp only [if_neg better,if_neg fun is_better => better (better_iff.mp is_better),Option.map_some]
    · rw [if_neg trades,List.filter_cons,if_neg (by simpa using trades),List.filter_nil,List.append_nil]

theorem le_of_idxOf_le (sorted : prices.Pairwise (· < ·)) {other : Int} (member : price ∈ prices) (inside : other ∈ prices)
    (earlier : prices.idxOf price ≤ prices.idxOf other) : price ≤ other := by
  have here := List.idxOf_lt_length_iff.mpr member
  have there := List.idxOf_lt_length_iff.mpr inside
  rw [← List.getElem_idxOf here,← List.getElem_idxOf there]
  rcases earlier.lt_or_eq with less | same
  · exact (List.pairwise_iff_getElem.mp sorted _ _ here there less).le
  · simp only [same,le_refl]

end Sweep

section Rule
variable {book : Book} {reference price volume : Int}

section
variable (sound : book.Sound)
include sound

theorem Sound.level_rests {side : Side} {level : Level} (there : book.level side price = some level) :
    ∃ id order, book.view.get? id = some order ∧ order.side = side ∧ order.price = price := by
  obtain ⟨e,first⟩ := sound.nonempty there
  obtain ⟨order,found,at_level,_⟩ := sound.head there first
  exact ⟨e.2,_,view_of_order found,at_level.1,at_level.2⟩

theorem Sound.priced_iff :
    Priced book.bids.entries book.asks.entries price ↔ Rests book.view price := by
  constructor
  · rintro (bid | ask)
    · obtain ⟨e,member,rfl⟩ := List.mem_map.mp bid
      obtain ⟨id,order,found,_,at_price⟩ := @Sound.level_rests _ _ sound .Buy e.2 (OrdMap.get?_eq_some_iff.mpr member)
      exact ⟨id,order,found,at_price⟩
    · obtain ⟨e,member,rfl⟩ := List.mem_map.mp ask
      obtain ⟨id,order,found,_,at_price⟩ := @Sound.level_rests _ _ sound .Sell e.2 (OrdMap.get?_eq_some_iff.mpr member)
      exact ⟨id,order,found,at_price⟩
  · rintro ⟨id,order,found,rfl⟩
    obtain ⟨level,there⟩ := sound.has_level found
    cases side : order.side with
    | Buy =>
      rw [side] at there
      exact .inl (List.mem_map_of_mem (OrdMap.mem_of_get? there))
    | Sell =>
      rw [side] at there
      exact .inr (List.mem_map_of_mem (OrdMap.mem_of_get? there))

theorem Sound.demand_eq (price : Int) :
    demand book.bids.entries price = reach .Sell (some price) book.view := by
  rw [sound.reach_eq]
  simp [demand,total,swept,reaches,crosses,List.filter_reverse]

theorem Sound.supply_eq (price : Int) :
    supply book.asks.entries price = reach .Buy (some price) book.view := by
  rw [sound.reach_eq]
  simp [supply,total,swept,reaches,crosses]

theorem Sound.trades_eq (price : Int) :
    min (demand book.bids.entries price) (supply book.asks.entries price) = matched book.view price := by
  rw [sound.demand_eq,sound.supply_eq]
  rfl

theorem Sound.apart_eq (price : Int) :
    |demand book.bids.entries price - supply book.asks.entries price| = imbalance book.view price := by
  rw [sound.demand_eq,sound.supply_eq]
  rfl

/-- The candidate of the sweep is the first one of the greatest rank among the resting prices that trade. -/
theorem Sound.sweep_first (reference : Int) :
    ∃ prices : List Int, prices.Pairwise (· < ·) ∧
      (∀ price, price ∈ prices ↔ Rests book.view price ∧ 0 < matched book.view price) ∧
      sweep reference (book.bids.values.map Level.total).sum (book.bids.size + book.asks.size) book.bids.entries
        book.asks.entries 0 0 none = (prices.argmax (rank reference book.bids.entries book.asks.entries)).map
          (candidate book.bids.entries book.asks.entries) := by
  have all : (book.bids.values.map Level.total).sum = total ([] ++ book.bids.entries) := by
    simp [OrdMap.values,total,Function.comp_def]
  obtain ⟨prices,sorted,priced,folds⟩ := @sweep_eq reference none (book.bids.size + book.asks.size) [] []
    book.bids.entries book.asks.entries book.bids.sorted book.asks.sorted (by simp) le_rfl
  rw [← all] at folds
  refine ⟨_,sorted.filter _,fun price => ?_,folds.trans (foldl_consider ..)⟩
  rw [List.mem_filter,priced,sound.priced_iff,decide_eq_true_eq,← sound.trades_eq]
  rfl

/-- The auction price is a resting price that trades, preferred to every other. -/
theorem Sound.auctioned (auction : book.auction_price reference = some (price,volume)) :
    Rests book.view price ∧ volume = matched book.view price ∧ 0 < volume ∧
      ∀ other, Rests book.view other → Preferred reference book.view price other := by
  obtain ⟨c,swept,rest⟩ := Option.bind_eq_some_iff.mp auction
  obtain ⟨fitted,fits,same⟩ := Option.map_eq_some_iff.mp rest
  cases same
  obtain ⟨prices,sorted,inside,first⟩ := sound.sweep_first reference
  obtain ⟨price,most,rfl⟩ := Option.map_eq_some_iff.mp (first.symm.trans swept)
  obtain ⟨member,greatest,first⟩ := List.mem_argmax_iff.mp most
  obtain ⟨rests,trades⟩ := (inside price).mp member
  have volume := (to_i64_some fits).trans (sound.trades_eq price)
  refine ⟨rests,volume,volume ▸ trades,fun other there => ?_⟩
  change Preferred reference book.view price other
  by_cases some_volume : 0 < matched book.view other
  · have among := (inside other).mpr ⟨there,some_volume⟩
    have lower (same : _) := le_of_idxOf_le sorted member among (first other among same)
    have most := greatest other among
    simp only [rank,sound.trades_eq,sound.apart_eq,Prod.Lex.toLex_le_toLex] at most lower
    unfold Preferred
    omega
  · exact .inl (by omega)

/-- Where there is no auction, and the volume is in range, nothing trades at any price. -/
theorem Sound.no_auction (none : book.auction_price reference = none) (fits : book.Fits) :
    ∀ id order, book.view.get? id = some order → matched book.view order.price ≤ 0 := by
  intro id order found
  obtain ⟨prices,_,inside,first⟩ := sound.sweep_first reference
  simp only [auction_price,first] at none
  cases most : prices.argmax (rank reference book.bids.entries book.asks.entries) with
  | none =>
    by_contra trades
    have among := (inside order.price).mpr ⟨⟨id,order,found,rfl⟩,not_le.mp trades⟩
    rw [List.argmax_eq_none.mp most] at among
    cases among
  | some price =>
    -- The volume of a candidate is that of a price with an order, so it is in range.
    obtain ⟨⟨id,order,found,rfl⟩,trades⟩ := (inside price).mp (List.argmax_mem most)
    have range := fits (id,order) (OrdMap.mem_of_get? found)
    simp only [most,Option.map_some,Option.bind_some,candidate,sound.trades_eq] at none
    rw [to_i64_of_fits (by simp only; omega) range] at none
    cases none

/-- No price on the axis trades more than some price with an order. -/
theorem Sound.matched_rests (trades : 0 < matched book.view price) :
    ∃ other, Rests book.view other ∧ matched book.view price ≤ matched book.view other := by
  have supplied : 0 < reach .Buy (some price) book.view := trades.trans_le (min_le_right _ _)
  have some_ask : (book.asks.keys.filter fun ask => ask ≤ price).toFinset.Nonempty := by
    by_contra none
    refine supplied.ne' (OrdMap.sum_eq_zero fun id order found => if_neg ?_)
    rintro ⟨sells,below⟩
    obtain ⟨level,there⟩ := sound.has_level found
    rw [sells] at there
    refine none ⟨order.price,List.mem_toFinset.mpr (List.mem_filter.mpr ⟨OrdMap.mem_keys.mpr ⟨level,there⟩,?_⟩)⟩
    simpa [reaches,crosses] using below
  -- The highest ask that the price reaches has the same supply and no less demand.
  obtain ⟨ask,member,highest⟩ := Finset.exists_max_image _ id some_ask
  obtain ⟨inside,below⟩ := List.mem_filter.mp (List.mem_toFinset.mp member)
  have below : ask ≤ price := by simpa using below
  have supply_same : reach .Buy (some ask) book.view = reach .Buy (some price) book.view := by
    refine OrdMap.sum_congr fun id order found => ?_
    unfold reachable
    by_cases sells : order.side = Side.Buy.opposite
    · obtain ⟨level,there⟩ := sound.has_level found
      have reached : reaches .Buy (some ask) order.price = reaches .Buy (some price) order.price := by
        simp only [reaches,crosses,Option.all_some]
        refine decide_eq_decide.mpr ⟨fun le => le.trans below,fun le => ?_⟩
        rw [sells] at there
        exact highest order.price (List.mem_toFinset.mpr (List.mem_filter.mpr ⟨OrdMap.mem_keys.mpr ⟨level,there⟩,
          decide_eq_true le⟩))
      rw [reached]
    · rw [if_neg fun both => sells both.1,if_neg fun both => sells both.1]
  have demand_more : reach .Sell (some price) book.view ≤ reach .Sell (some ask) book.view := by
    refine OrdMap.sum_le_sum fun id order found => ?_
    have := (sound.view_positive found).1
    simp only [reachable,reaches,crosses,Option.all_some,decide_eq_true_eq]
    split_ifs with reached reached'
    · exact le_rfl
    · exact (reached' ⟨reached.1,below.trans reached.2⟩).elim
    · omega
    · exact le_rfl
  refine ⟨ask,sound.priced_iff.mp (.inr inside),?_⟩
  unfold matched
  rw [supply_same]
  exact min_le_min_right _ demand_more

end

/-- The rule of the auction price. There is none exactly when no price has both
    demand and supply; else it is the resting price preferred to all others,
    with its volume, and no price on the axis has more. -/
theorem auction_price_rule (book : Book) (reference : Int) (sound : book.Sound) (fits : book.Fits) :
    (book.auction_price reference = none ↔
      ∀ price, ¬ (0 < reach .Sell (some price) book.view ∧ 0 < reach .Buy (some price) book.view)) ∧
    ∀ price volume, book.auction_price reference = some (price,volume) →
      Rests book.view price ∧ volume = matched book.view price ∧
      (∀ other, Rests book.view other → Preferred reference book.view price other) ∧
      ∀ other, matched book.view other ≤ volume := by
  refine ⟨⟨fun none price both => ?_,fun apart => ?_⟩,fun price volume auction => ?_⟩
  · obtain ⟨other,⟨id,order,found,rfl⟩,less⟩ := sound.matched_rests (lt_min both.1 both.2)
    have := sound.no_auction none fits id order found
    have : 0 < matched book.view price := lt_min both.1 both.2
    omega
  · cases auction : book.auction_price reference with
    | none => rfl
    | some out =>
      obtain ⟨_,volume,positive,_⟩ := sound.auctioned auction
      rw [volume] at positive
      exact (apart out.1 ⟨positive.trans_le (min_le_left _ _),positive.trans_le (min_le_right _ _)⟩).elim
  · obtain ⟨rests,volume,positive,preferred⟩ := sound.auctioned auction
    refine ⟨rests,volume,preferred,fun other => ?_⟩
    by_contra more
    have trades : 0 < matched book.view other := by omega
    obtain ⟨resting,there,less⟩ := sound.matched_rests trades
    have := preferred resting there
    unfold Preferred at this
    omega

/-- A bid of ten at 102 meets asks of four at 100 and three at 101. Seven trade
    at 101 and at 102 with the same imbalance, and 101 is nearer the reference. -/
theorem auction_price_rule_tie :
    ∃ book : Book, book.Sound ∧ book.Fits ∧ book.auction_price 100 = some (101,7) ∧
      (∀ other, Rests book.view other → Preferred 100 book.view 101 other) ∧ ∀ other, matched book.view other ≤ 7 := by
  obtain ⟨book,loads,fits,auction⟩ : ∃ book,
      try_from ⟨3,[⟨7,.Buy,102,10,10,none,0⟩,⟨8,.Sell,100,4,1,some 1,1⟩,⟨9,.Sell,101,3,3,none,2⟩]⟩ = .ok book ∧
        book.Fits ∧ book.auction_price 100 = some (101,7) := by decide +kernel
  have sound := load_sound (sound_start _) rfl (by decide) loads
  obtain ⟨_,_,preferred,most⟩ := (auction_price_rule book 100 sound fits).2 101 7 auction
  exact ⟨book,sound,fits,auction,preferred,most⟩

end Rule
end Book
end Bunting
