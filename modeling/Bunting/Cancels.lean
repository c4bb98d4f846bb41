import Bunting.Invariant

/-!
Taking live orders off the market: one by one, by expiry, and all of a
participant or an instrument. A live order can always be canceled, overflow
apart, and a loop over live orders finds each of them live when it gets there.
-/

namespace Bunting
open Stateful

section Cancel
variable {F : Frame} {t t' : Transition} {id : OrderId} {reason : CancelReason} {x : Unit} {owned : OwnedOrder}

theorem cancel_run (ran : (cancel id reason).run t = .ok x t') :
    ∃ owned listing resting book ledger, t.run.ownership.get? id = some owned ∧ owned.state = .Active ∧
      t.run.listings.get? owned.listing_key = some listing ∧ Book.cancel id listing.book = (some resting,book) ∧
      (Ledger.close_order owned.participant_id owned.listing_key.instrument_id owned.side owned.remaining_quantity
        owned.reservation).run t.run.ledger = .ok () ledger ∧
      t' = t.canceled id owned reason book ledger := by
  simp only [cancel,unrest,posting,modify_run,emit,returned,Option.filter_eq_some_iff,decide_eq_true_eq] at ran
  obtain ⟨owned,⟨found,live⟩,resting,_,⟨listing,known,taken,rfl⟩,_,_,⟨ledger,closes,rfl⟩,rfl⟩ := ran
  refine ⟨owned,listing,resting,(Book.cancel id listing.book).2,ledger,found,live,known,Prod.ext taken rfl,?_,?_⟩
  · simpa only [RunState.set_book_eq] using closes
  · simp only [RunState.set_book_eq]
    rfl

variable (inv : Inv F t)
include inv

theorem Inv.fair : Fair t.run.ownership :=
  inv.records.fair F.valid fun _ _ flies => (nomatch flies)

/-- A live order is in the book of its listing. -/
theorem Inv.in_book {listing : ListingState} (found : t.run.ownership.get? id = some owned)
    (live : owned.state = .Active)
    (known : t.run.listings.get? owned.listing_key = some listing) :
    ∃ order book, listing.book.orders.get? id = some order ∧ order.remaining = owned.remaining_quantity ∧
      Book.cancel id listing.book = (some order,book) ∧ book.Sound ∧
      book.view = (t.run.views owned.listing_key).set id none := by
  have rests := inv.records.orders.rests found live (by simp)
  rw [RunState.views,RunState.book_of_listing known] at rests
  obtain ⟨order,there,same⟩ := Book.order_of_view rests
  have sound := inv.books owned.listing_key
  rw [RunState.book_of_listing known] at sound
  obtain ⟨book,cancels,sound',view⟩ := Book.cancel_total sound there
  refine ⟨order,book,there,?_,cancels,sound',?_⟩
  · rw [OwnedOrder.resting] at same
    exact (congrArg Book.Resting.remaining same).symm
  · rw [view,RunState.views,RunState.book_of_listing known]

theorem cancel_ok (ran : (cancel id reason).run t = .ok x t') :
    ∃ owned, t.run.ownership.get? id = some owned ∧ owned.state = .Active ∧ Inv F t' ∧
      t'.run.ownership = t.run.ownership.insert id owned.canceled ∧
      t'.run.expiries = drop_expiry owned.expires_at id t.run.expiries := by
  obtain ⟨owned,listing,resting,book,ledger,found,live,known,cancels,closes,rfl⟩ := cancel_run ran
  obtain ⟨order,book',_,_,cancels',sound,view⟩ := inv.in_book found live known
  cases cancels.symm.trans cancels'
  have fair := inv.fair
  have balanced := inv.balanced.close_order found live (fun _ => (fair id owned found live).2) closes
  have moved : (t.canceled id owned reason book ledger).run.views = t.run.views.set owned.listing_key id none := by
    rw [Views.set,← view]
    exact views_put_book known
  refine ⟨owned,found,live,?_,rfl,rfl⟩
  unfold Inv
  rw [moved]
  refine { inv with
    setup := RunState.setup_of inv.setup definitions_put_book balanced rfl
    books := fun key => ?_
    records := ?_
    balanced
    emitted := inv.emitted.append fun payload member => ?_
    moves := inv.moves.tail (.canceled found live known cancels ?_ closes) }
  · rw [RunState.book,Transition.canceled,book_put_book known]
    split_ifs
    · exact sound
    · exact inv.books key
  · have records := inv.records.cancel found live (by simp)
    simpa [Transition.canceled,EventPayload.terminal] using records
  · cases List.mem_singleton.mp member
    exact ⟨trivial,rfl,rfl⟩
  · rw [view,RunState.views,RunState.book_of_listing known]

theorem cancel_error {fault : Fault} (found : t.run.ownership.get? id = some owned) (live : owned.state = .Active)
    (failed : (cancel id reason).run t = .error fault t') : fault.cause = .Overflow := by
  have positive := inv.records.orders.positive found live
  obtain ⟨D,T,listed,_⟩ := inv.records.admitted found live
  rw [← inv.setup] at listed
  obtain ⟨listing,known,_⟩ := RunState.listing_of_definition listed
  obtain ⟨order,book,_,same,cancels,_,_⟩ := inv.in_book found live known
  have fair : Fair (t.run.ownership.insert id owned.canceled) :=
    inv.fair.replace fun active => (nomatch active)
  have picked : (t.run.ownership.get? id).filter (fun owned => owned.state = .Active) = some owned := by
    rw [found]; simp [live]
  have taken : (unrest owned.listing_key id).run t =
      .ok order { t with run := { t.run with listings := put_book t.run.listings owned.listing_key book } } := by
    simp [unrest,known,cancels,modify_run,RunState.set_book_eq]
  simp only [cancel,posting,modify_run,emit,returned,raised] at failed
  obtain ⟨missing,_⟩ | ⟨_,picked',stuck | ⟨_,_,rests,⟨wrong,_⟩ | ⟨_,e,ledger,stuck,rfl,_⟩⟩⟩ := failed
  · rw [picked] at missing; cases missing
  · cases picked.symm.trans picked'
    rw [taken] at stuck; cases stuck
  · cases picked.symm.trans picked'
    rw [taken] at rests; cases rests
    exact absurd same wrong
  · cases picked.symm.trans picked'
    rw [taken] at rests; cases rests
    have large := inv.balanced.accounts.close_order_error fair found live positive (inv.records.admitted found live) stuck
    rw [Fault.accounting,if_pos large]

end Cancel

/-! ### Many orders -/

/-- The only failures are overflows. -/
def Overflows (fault : Fault) (_ : Transition) : Prop := fault.cause = .Overflow

/-- Each of the orders is live, and none is named twice. -/
def AllLive (ids : List OrderId) (t : Transition) : Prop :=
  ids.Nodup ∧ ∀ id ∈ ids, ∃ owned, t.run.ownership.get? id = some owned ∧ owned.state = .Active

section Loops
variable {F : Frame} {t : Transition}

theorem Inv.touch (inv : Inv F t) (changed : OrdSet ListingKey) : Inv F { t with changed } :=
  { inv with moves := inv.moves.tail (.touched changed) }

theorem cancel_meets (id : OrderId) (rest : List OrderId) (reason : CancelReason) :
    Meets (fun t => Inv F t ∧ AllLive (id :: rest) t) (cancel id reason) (fun _ t => Inv F t ∧ AllLive rest t)
      Overflows := by
  rintro t ⟨inv,distinct,live⟩
  cases ran : (cancel id reason).run t with
  | ok x t' =>
    obtain ⟨owned,found,_,inv',ownership,_⟩ := cancel_ok inv ran
    refine ⟨inv',(List.nodup_cons.mp distinct).2,fun j member => ?_⟩
    have other : j ≠ id := by
      rintro rfl
      exact (List.nodup_cons.mp distinct).1 member
    rw [ownership,OrdMap.get?_insert_of_ne other]
    exact live j (List.mem_cons_of_mem _ member)
  | error fault t' =>
    obtain ⟨owned,found,active⟩ := live id List.mem_cons_self
    exact cancel_error inv found active ran

theorem touch_meets (key : ListingKey) (ids : List OrderId) :
    Meets (fun t => Inv F t ∧ AllLive ids t) (touch key) (fun _ t => Inv F t ∧ AllLive ids t) Overflows :=
  fun _ ⟨inv,live⟩ => ⟨inv.touch _,live⟩

theorem cancel_all_meets (reason : CancelReason) (orders : List (OrderId × ListingKey)) :
    Meets (fun t => Inv F t ∧ AllLive (orders.map Prod.fst) t) (cancel_all reason orders) (fun _ => Inv F) Overflows := by
  refine (forM_meets (fun rest t => Inv F t ∧ AllLive (rest.map Prod.fst) t) (fun entry rest => ?_)
    orders).imp (fun _ holds => holds) (fun _ _ holds => holds.1) fun _ _ large => large
  exact (touch_meets entry.2 _).bind fun _ => cancel_meets entry.1 _ reason

/-- Live orders picked from the records by a condition. -/
theorem Inv.live_where (inv : Inv F t) (p : OwnedOrder → Bool) :
    AllLive ((t.run.live_where p).map Prod.fst) t ∧
    (t.run.live_where p).map (fun entry => entry.2.order_id) = (t.run.live_where p).map Prod.fst := by
  refine ⟨⟨?_,fun id member => ?_⟩,List.map_congr_left fun entry member => ?_⟩
  · exact t.run.ownership.keys_nodup.sublist (List.filter_sublist.map Prod.fst)
  · obtain ⟨entry,picked,rfl⟩ := List.mem_map.mp member
    obtain ⟨there,holds⟩ := List.mem_filter.mp picked
    simp only [Bool.decide_and,Bool.and_eq_true,decide_eq_true_eq] at holds
    exact ⟨entry.2,OrdMap.get?_eq_some_iff.mpr there,holds.1⟩
  · exact inv.records.orders.keyed (OrdMap.get?_eq_some_iff.mpr (List.mem_filter.mp member).1)

/-! ### Expiry -/

/-- No order expires at or before a time. -/
def Unexpired (now : Nat) (run : RunState) : Prop :=
  ∀ time id, run.expiries.contains (toLex (time,id)) = true → now < time

/-- The live orders of a run that do not expire by a time have the same records in another. -/
def Spares (now : Nat) (run run' : RunState) : Prop :=
  ∀ id owned, run.ownership.get? id = some owned → owned.state = .Active → (∀ time ∈ owned.expires_at, now < time) →
    run'.ownership.get? id = some owned

/-- The loop cancels the first expiry and goes on; each round has one expiry fewer. -/
theorem expire_loop_meets (run : RunState) (now fuel : Nat) :
    Meets (fun t => Inv F t ∧ t.run.expiries.size < fuel ∧ Spares now run t.run) (expire_loop now fuel)
      (fun _ t => Inv F t ∧ Unexpired now t.run ∧ Spares now run t.run) Overflows := by
  induction fuel with
  | zero => exact fun t ⟨_,small,_⟩ => absurd small (by omega)
  | succ fuel ih =>
    rintro t ⟨inv,small,spares⟩
    unfold expire_loop
    rw [EStateM.run_bind]
    simp only [EStateM.run_get]
    cases first : t.run.expiries.first? with
    | none =>
      refine ⟨inv,fun time id there => ?_,spares⟩
      obtain ⟨_,there⟩ := OrdMap.contains_iff.mp there
      rw [OrdMap.first?_eq_none_iff.mp first] at there
      cases there
    | some entry =>
      obtain ⟨expiry,_⟩ := entry
      have held := OrdMap.get?_of_first? first
      simp only
      split_ifs with later
      · -- The first expiry is the earliest.
        refine ⟨inv,fun time id there => ?_,spares⟩
        obtain ⟨_,there⟩ := OrdMap.contains_iff.mp there
        have least := OrdMap.first?_le first there
        rcases Prod.Lex.le_iff.mp least with earlier | ⟨same,_⟩
        · exact lt_trans later earlier
        · exact lt_of_lt_of_eq later same
      · have expires : t.run.expiries.contains (toLex ((ofLex expiry).1,(ofLex expiry).2)) = true :=
          OrdMap.contains_iff.mpr ⟨_,held⟩
        obtain ⟨owned,found,live,at_time,_⟩ := (inv.records.orders.expiring _ _).mp expires
        rw [EStateM.run_bind,found]
        simp only [run_orElse_some]
        have one : Meets (fun u => u.run = t.run ∧ Inv F u) (cancel (ofLex expiry).2 .Expired)
            (fun _ u => Inv F u ∧ u.run.expiries.size < fuel ∧ Spares now run u.run) Overflows := by
          rintro u ⟨same,inv⟩
          rw [← same] at found expires small spares
          cases ran : (cancel (ofLex expiry).2 .Expired).run u with
          | ok x u' =>
            obtain ⟨owned',found',_,inv',ownership,expiries⟩ := cancel_ok inv ran
            cases found.symm.trans found'
            refine ⟨inv',?_,fun id kept held active late => ?_⟩
            · have fewer := OrdMap.size_erase expires
              rw [expiries,drop_expiry,at_time]
              simp only [Option.elim]
              change _ + 1 = u.run.expiries.size at fewer
              omega
            · have still := spares id kept held active late
              have other : id ≠ (ofLex expiry).2 := by
                rintro rfl
                cases still.symm.trans found
                exact later (late _ at_time)
              rw [ownership,OrdMap.get?_insert_of_ne other]
              exact still
          | error fault u' => exact cancel_error inv found live ran
        have touched : Meets (fun u => t = u) (touch owned.listing_key) (fun _ u => u.run = t.run ∧ Inv F u) Overflows := by
          rintro _ rfl
          exact ⟨rfl,inv.touch _⟩
        exact touched.bind (fun _ => one.bind fun _ => ih) t rfl

theorem expire_due_meets (now : Nat) :
    Meets (Inv F) (expire_due now) (fun _ t => Inv F t ∧ Unexpired now t.run) Overflows := by
  intro t inv
  exact (expire_loop_meets t.run now (t.run.expiries.size + 1)).imp (fun _ holds => holds)
    (fun _ _ holds => ⟨holds.1,holds.2.1⟩) (fun _ _ large => large) t
    ⟨inv,Nat.lt_succ_self _,fun _ _ found _ _ => found⟩

end Loops

end Bunting
