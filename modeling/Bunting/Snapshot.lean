import Bunting.Conservation

/-!
The five structures of a run agree in every state a run reaches: the records,
the books, the expiries, the window of retired orders and the counts of live
ones. So a snapshot of the run validates.
-/

namespace Bunting
open Stateful

section Consistent
variable {s : RunState}

def RunState.live_of (run : RunState) (p : ParticipantId) : Nat :=
  run.ownership.sum (fun _ owned => if owned.state = .Active ∧ owned.participant_id = p then 1 else 0)

section
variable (sane : Sane s) {id : OrderId} {owned : OwnedOrder}
include sane

theorem Sane.records : Records s.setup s.views none [] s.ownership s.expiries s.retired s.live_orders :=
  (sane.inv 0).records

theorem Sane.retired_iff (found : s.ownership.get? id = some owned) :
    id ∈ s.retired ↔ owned.state ≠ .Active := by
  have ended := sane.records.retirement.ended id (by simp)
  rw [List.append_nil] at ended
  rw [ended]
  constructor
  · rintro ⟨other,there,done⟩
    cases found.symm.trans there
    exact done
  · exact fun done => ⟨owned,found,done⟩

theorem Sane.live_orders (p : ParticipantId) : s.live_orders.get? p = nonzero (s.live_of p) := by
  rw [sane.records.retirement.counted,unretired,RunState.live_of]
  congr 1
  refine OrdMap.sum_congr fun id owned found => ?_
  simp only [sane.retired_iff found,not_not,and_comm]

/-- An order rests in a book exactly when its record is live there. -/
theorem Sane.rests_iff (key : ListingKey) (id : OrderId) :
    (∃ order, (s.book key).orders.get? id = some order) ↔
      ∃ owned, s.ownership.get? id = some owned ∧ owned.state = .Active ∧ owned.listing_key = key := by
  have agrees := sane.records.orders.agrees key id
  rw [RunState.views,Book.get?_view,rested] at agrees
  constructor
  · rintro ⟨order,found⟩
    rw [found] at agrees
    obtain ⟨owned,there,rest⟩ := Option.bind_eq_some_iff.mp agrees.symm
    split_ifs at rest with live
    exact ⟨owned,there,live.1,live.2.1⟩
  · rintro ⟨owned,there,live,here⟩
    rw [there,Option.bind_some,if_pos ⟨live,here,by simp⟩] at agrees
    obtain ⟨order,found,_⟩ := Option.map_eq_some_iff.mp agrees
    exact ⟨order,found⟩

theorem Sane.resting_eq {key : ListingKey} {order : BookOrder}
    (rests : (s.book key).orders.get? id = some order) (found : s.ownership.get? id = some owned) :
    order.side = owned.side ∧ order.price = owned.limit_price ∧ order.remaining = owned.remaining_quantity ∧
    0 < owned.remaining_quantity := by
  have agrees := sane.records.orders.agrees key id
  rw [RunState.views,Book.get?_view,rests,rested,found,Option.bind_some] at agrees
  split_ifs at agrees with live
  swap
  · cases agrees
  have same := Option.some.inj agrees
  simp only [OwnedOrder.resting,Book.Resting.mk.injEq] at same
  exact ⟨same.1,same.2.1,same.2.2,sane.records.orders.positive found live.1⟩

theorem Sane.expiring_iff (time : Nat) (id : OrderId) :
    s.expiries.contains (toLex (time,id)) = true ↔
      ∃ owned, s.ownership.get? id = some owned ∧ owned.state = .Active ∧ owned.expires_at = some time := by
  rw [sane.records.orders.expiring]
  simp

theorem Sane.listed (found : s.ownership.get? id = some owned)
    (live : owned.state = .Active) : ∃ listing, s.listings.get? owned.listing_key = some listing := by
  obtain ⟨D,_,listed,_⟩ := sane.records.admitted found live
  obtain ⟨listing,known,_⟩ := RunState.listing_of_definition listed
  exact ⟨listing,known⟩

end

/-! ### Counts over the records -/

theorem filter_length {K V : Type} [LinearOrder K] (m : OrdMap K V) (p : V → Bool) :
    (m.values.filter p).length = m.sum (fun _ x => if p x = true then 1 else 0) := by
  unfold OrdMap.values OrdMap.sum
  induction m.entries with
  | nil => rfl
  | cons e rest ih =>
    rw [List.map_cons,List.filter_cons,List.map_cons,List.sum_cons,← ih]
    cases holds : p e.2 <;> simp [holds,Nat.add_comm]

theorem RunState.live_length (s : RunState) : s.live.length = active s.ownership := by
  unfold RunState.live active
  rw [filter_length]
  simp

theorem Sane.sizes (sane : Sane s) : s.live.length + s.retired.length = s.ownership.size := by
  have size := sane.records.retirement.size
  have unretired : s.ownership.sum (fun id _ => if id ∉ s.retired then 1 else 0) = active s.ownership := by
    refine OrdMap.sum_congr fun id owned found => ?_
    simp only [sane.retired_iff found,not_not]
  rw [RunState.live_length,size,unretired]
  omega

/-- Each live order rests in one book, so the books hold as many orders as are live. -/
theorem Sane.resting_length (sane : Sane s) :
    (s.listings.values.map (fun listing => listing.book.orders.size)).sum = s.live.length := by
  have per_book : (s.listings.values.map (fun listing => listing.book.orders.size)).sum =
      s.listings.sum (fun key _ => s.ownership.sum (fun _ owned =>
        if owned.state = .Active ∧ owned.listing_key = key then 1 else 0)) := by
    have sizes : (s.listings.values.map (fun listing => listing.book.orders.size)).sum =
        s.listings.sum (fun _ listing => listing.book.orders.size) := by
      unfold OrdMap.values OrdMap.sum
      rw [List.map_map]
      rfl
    rw [sizes]
    refine OrdMap.sum_congr fun key listing known => OrdMap.size_of_picks fun id => ?_
    have rests := sane.rests_iff key id
    rw [RunState.book_of_listing known] at rests
    exact rests
  rw [per_book,OrdMap.sum_comm,RunState.live_length,active]
  refine OrdMap.sum_congr fun id owned found => ?_
  by_cases live : owned.state = .Active
  · obtain ⟨listing,known⟩ := sane.listed found live
    simp only [live,true_and,if_true]
    have single := s.listings.sum_single (fun _ _ => 1) owned.listing_key
    rw [known,Option.elim_some] at single
    refine Eq.trans (OrdMap.sum_congr fun key _ _ => ?_) single
    simp only [eq_comm]
  · rw [if_neg live]
    exact OrdMap.sum_eq_zero fun key _ _ => if_neg fun both => live both.1

/-- Counting the live orders of each participant finds the counts kept. -/
theorem count_by_participant (l : List OwnedOrder) (counts : OrdMap ParticipantId Nat) (before : ParticipantId → Nat)
    (counted : ∀ p, counts.get? p = nonzero (before p)) (small : ∀ p, before p + l.length < 2 ^ 32) :
    ∃ after, l.foldlM (fun (counts : OrdMap ParticipantId Nat) (owned : OwnedOrder) => (do
        let count ← orElse (to_u32 ((counts.get? owned.participant_id).getD 0 + 1)) SnapshotError.UnsupportedVersion
        pure (counts.insert owned.participant_id count) : Except SnapshotError (OrdMap ParticipantId Nat))) counts =
      .ok after ∧ ∀ p, after.get? p = nonzero (before p + (l.filter (fun owned => owned.participant_id = p)).length) := by
  induction l generalizing counts before with
  | nil => exact ⟨counts,rfl,by simpa using counted⟩
  | cons owned rest ih =>
    have fits : to_u32 ((counts.get? owned.participant_id).getD 0 + 1) = some (before owned.participant_id + 1) := by
      have := small owned.participant_id
      rw [counted,nonzero_getD]
      simp only [List.length_cons] at this
      exact if_pos (by omega)
    have counted' (p : ParticipantId) : (counts.insert owned.participant_id (before owned.participant_id + 1)).get? p =
        nonzero (before p + if owned.participant_id = p then 1 else 0) := by
      rw [OrdMap.get?_insert]
      by_cases here : p = owned.participant_id
      · subst here
        simp [nonzero]
      · rw [if_neg here,if_neg (Ne.symm here),counted,Nat.add_zero]
    obtain ⟨after,ran,finds⟩ := ih _ _ counted' fun p => by
      have := small p
      simp only [List.length_cons] at this
      split_ifs <;> omega
    refine ⟨after,?_,fun p => ?_⟩
    · rw [List.foldlM_cons,fits]
      exact ran
    · rw [finds,List.filter_cons]
      by_cases here : owned.participant_id = p <;> simp [here,Nat.add_assoc,Nat.add_comm 1]

theorem Sane.live_by_participant (sane : Sane s) : s.live_by_participant = .ok s.live_orders := by
  have few : s.live.length < 2 ^ 32 := by
    have := sane.records.retirement.capacity
    rw [RunState.live_length]
    simp only [MAX_LIVE_ORDERS] at this
    omega
  obtain ⟨counts,ran,finds⟩ := count_by_participant s.live ∅ (fun _ => 0) (fun p => rfl) (fun p => by omega)
  have same : counts = s.live_orders := by
    refine OrdMap.ext_get? fun p => ?_
    rw [finds,sane.live_orders,Nat.zero_add,RunState.live,List.filter_filter,filter_length,RunState.live_of]
    simp [and_comm]
  rw [RunState.live_by_participant,ran,same]

/-! ### Validation -/

section
variable (sane : Sane s)
include sane

theorem Sane.entries_agree : s.ownership.entries.all s.agrees = true := by
  refine List.all_eq_true.mpr fun entry member => ?_
  have found : s.ownership.get? entry.1 = some entry.2 := OrdMap.get?_eq_some_iff.mpr member
  rw [RunState.agrees,decide_eq_true_eq]
  refine ⟨(sane.records.orders.keyed found).symm,?_⟩
  have rests := sane.rests_iff entry.2.listing_key entry.1
  have here : (∃ order, (s.book entry.2.listing_key).orders.get? entry.1 = some order) ↔
      (s.listings.get? entry.2.listing_key).any (fun listing => listing.book.orders.contains entry.1) = true := by
    unfold RunState.book
    cases s.listings.get? entry.2.listing_key with
    | none => exact ⟨fun ⟨_,inside⟩ => (nomatch inside),fun none => (nomatch none)⟩
    | some listing => exact OrdMap.contains_iff.symm
  rw [← here,rests]
  constructor
  · exact fun live => ⟨entry.2,found,live,rfl⟩
  · rintro ⟨owned,there,live,_⟩
    cases found.symm.trans there
    exact live

theorem Sane.expiries_pending : s.expiries.keys.all s.pending = true := by
  refine List.all_eq_true.mpr fun expiry member => ?_
  obtain ⟨owned,found,live,expires⟩ := (sane.expiring_iff (ofLex expiry).1 (ofLex expiry).2).mp
    (OrdMap.contains_iff.mpr (OrdMap.mem_keys.mp member))
  rw [RunState.pending,found,Option.any_some,decide_eq_true_eq]
  exact ⟨live,expires⟩

theorem Sane.terms_match : s.ledger.terms.size = s.instruments.size ∧
    s.instruments.entries.all (fun entry => s.ledger.terms_of entry.1 = .ok entry.2.terms) = true := by
  have terms : s.ledger.terms = s.instruments.mapValues (fun _ instrument => instrument.terms) := sane.valid.terms
  refine ⟨by rw [terms,OrdMap.size_mapValues],List.all_eq_true.mpr fun entry member => ?_⟩
  rw [decide_eq_true_eq,Ledger.terms_of,terms,OrdMap.get?_mapValues,OrdMap.get?_eq_some_iff.mpr member]
  rfl

theorem Sane.validates : s.validate = .ok () := by
  have config : s.config = {} := sane.valid.config
  have listings : s.listings.isEmpty = false ∧ s.listings.size ≤ MAX_LISTINGS := by
    obtain ⟨some,few⟩ := sane.valid.listings
    rw [RunState.setup,OrdMap.size_mapValues] at few
    refine ⟨?_,few⟩
    rw [Bool.eq_false_iff,Ne,OrdMap.isEmpty_iff] at some ⊢
    exact fun none => some fun key => by rw [RunState.setup,OrdMap.get?_mapValues,none]; rfl
  have participants : s.participants.size ≤ MAX_PARTICIPANTS := sane.valid.participants
  have capacity := sane.records.retirement.capacity
  rw [← RunState.live_length] at capacity
  have bounded := sane.records.retirement.bounded
  simp only [RunState.validate,except_bind_eq_ok,except_refuse_eq_ok]
  refine ⟨s.live_orders,sane.live_by_participant,?_⟩
  rw [config,sane.resting_length,sane.sizes,sane.entries_agree,sane.expiries_pending,sane.sound.policy,sane.terms_match.1,
    sane.terms_match.2,listings.1]
  simp only [ne_eq,not_true_eq_false,Bool.false_eq_true,or_false,false_or,not_or]
  exact ⟨by decide,by decide,not_lt.mpr listings.2,by omega,by omega,by omega⟩

theorem Sane.envelope_verifies {codec : Codec} {envelope : EngineSnapshotEnvelope}
    (made : EngineSnapshotEnvelope.new codec s = .ok envelope) : envelope.verify codec = .ok () := by
  simp only [EngineSnapshotEnvelope.new,returned] at made
  obtain ⟨hash,hashes,rfl⟩ := made
  simp only [EngineSnapshotEnvelope.verify,except_bind_eq_ok,except_refuse_eq_ok]
  exact ⟨⟨⟩,by simp,(),sane.validates,hash,hashes,by simp⟩

end

theorem records_agree_with_books {scenario : ScenarioDefinition} (reachable : Reachable scenario s) :
    s.validate = .ok () ∧
    (∀ codec envelope, EngineSnapshotEnvelope.new codec s = .ok envelope → envelope.verify codec = .ok ()) ∧
    (∀ key id, (∃ order, (s.book key).orders.get? id = some order) ↔
      ∃ owned, s.ownership.get? id = some owned ∧ owned.state = .Active ∧ owned.listing_key = key) ∧
    (∀ key id order owned, (s.book key).orders.get? id = some order → s.ownership.get? id = some owned →
      order.side = owned.side ∧ order.price = owned.limit_price ∧ order.remaining = owned.remaining_quantity ∧
      0 < owned.remaining_quantity) ∧
    (∀ id owned, s.ownership.get? id = some owned → owned.state = .Active → ∀ time,
      owned.expires_at = some time ↔ s.expiries.contains (toLex (time,id)) = true) ∧
    ∀ p, s.live_orders.get? p = nonzero (s.live_of p) := by
  have sane := reachable.sane
  refine ⟨sane.validates,fun codec envelope => sane.envelope_verifies,sane.rests_iff,fun key id order owned => sane.resting_eq,
    fun id owned found live time => ?_,sane.live_orders⟩
  rw [sane.expiring_iff,found]
  simp [live]

theorem records_agree_with_books_resting : ∃ s, Reachable sample s ∧ s.validate = .ok () ∧
    s.live_orders.get? 1 = nonzero (s.live_of 1) ∧ s.live_of 1 = 1 := by
  obtain ⟨start,history,s,starts,runs,one⟩ := @play_reaches sample sample_codec [place 0 1 7 1 .Buy 10 (.Limit 5)]
    (fun _ s => s.live_of 1 = 1) (by decide +kernel)
  have reachable : Reachable sample s := ⟨start,history,starts,runs⟩
  obtain ⟨valid,_,_,_,_,counts⟩ := records_agree_with_books reachable
  exact ⟨s,reachable,valid,counts 1,one⟩

end Consistent

end Bunting
