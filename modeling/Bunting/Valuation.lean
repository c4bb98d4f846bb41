import Bunting.Invariant

/-!
The value of a participant in the reporting currency can be computed, overflow
apart, where every held currency converts and every rate has its mark.
-/

namespace Bunting
open Stateful

section Valuation
variable {setup : Setup} {ledger : Ledger} {participant : ParticipantId}

theorem Ledger.positions_of_known (known : Known ledger) {entry : InstrumentId × Position}
    (member : entry ∈ ledger.positions_of participant) : ∃ T, ledger.terms.get? entry.1 = some T := by
  obtain ⟨e,there,rfl⟩ := List.mem_map.mp member
  obtain ⟨there,owner⟩ := List.mem_filter.mp there
  refine known (ofLex e.1).1 (ofLex e.1).2 (OrdMap.contains_iff.mpr ⟨e.2,?_⟩)
  exact OrdMap.get?_eq_some_iff.mpr there

theorem Ledger.terms_of_known {instrument : InstrumentId} {T : InstrumentTerms}
    (found : ledger.terms.get? instrument = some T) : ledger.terms_of instrument = .ok T := by
  rw [Ledger.terms_of,found]; rfl

theorem net_liquidation_value_failsOnly (known : Known ledger) (currency : CurrencyId) :
    OnlyOverflow (ledger.net_liquidation_value participant currency) := by
  refine .foldlM (fun entry member total => ?_) _
  obtain ⟨T,found⟩ := Ledger.positions_of_known known member
  have terms := Ledger.terms_of_known found
  have valued : OnlyOverflow (ledger.position_value entry.1 entry.2) := by
    unfold Ledger.position_value
    rw [terms]
    cases ledger.mark entry.1 with
    | none => exact .pure _
    | some mark => exact onlyOverflow_overflow
  rw [terms]
  exact .ite (fun _ => .bind valued fun _ _ => onlyOverflow_overflow) fun _ => .pure _

theorem held_currencies_converts (valid : setup.Valid) (terms : ledger.terms = setup.terms) (valued : Valued setup ledger)
    (enrolled : setup.participants.contains participant = true) {currencies : List CurrencyId}
    (ran : ledger.held_currencies participant = .ok currencies) : ∀ currency ∈ currencies, setup.Converts currency := by
  simp only [Ledger.held_currencies,returned] at ran
  obtain ⟨settled,positions,rfl⟩ := ran
  intro currency member
  have either : currency ∈ (ledger.cash_balances participant).map Prod.fst ∨ currency ∈ settled := by
    simpa using OrdMap.mem_keys_ofList.mp member
  rcases either with cash | position
  · obtain ⟨balance,held,rfl⟩ := List.mem_map.mp cash
    obtain ⟨e,there,rfl⟩ := List.mem_map.mp held
    obtain ⟨there,owner⟩ := List.mem_filter.mp there
    have owner : (ofLex e.1).1 = participant := by simpa using owner
    refine valued.cash participant (ofLex e.1).2 enrolled (OrdMap.contains_iff.mpr ⟨e.2,?_⟩)
    rw [← owner]
    exact OrdMap.get?_eq_some_iff.mpr there
  · obtain ⟨entry,_,made⟩ := except_mapM_mem positions position
    cases terms_here : ledger.terms.get? entry.1 with
    | none => rw [Ledger.terms_of,terms_here] at made; cases made
    | some T =>
      rw [Ledger.terms_of_known terms_here] at made
      cases made
      exact valid.converts (by rw [← terms]; exact terms_here)

theorem convert_value_failsOnly (valid : setup.Valid) (valued : Valued setup ledger) {currency : CurrencyId} {value : Int}
    (converts : ∃ rate ∈ setup.fx_rates, rate.currency = currency) :
    OnlyOverflow (ledger.convert_value setup.fx_rates currency value) := by
  unfold Ledger.convert_value
  cases found : setup.fx_rates.find? (fun rate => rate.currency = currency) with
  | none =>
    obtain ⟨rate,member,same⟩ := converts
    have := List.find?_eq_none.mp found rate member
    simp [same] at this
  | some rate =>
    have member := List.mem_of_find?_eq_some found
    obtain ⟨mark,marked⟩ := valued.rates rate member
    have positive := valid.rates rate member
    have marked : ledger.mark rate.instrument_id = some mark := marked
    refine .bind (.pure rate) fun _ same => ?_
    cases except_pure_eq_ok.mp same
    rw [marked]
    exact .bind (.pure mark) fun _ _ => .bind (.refuse (by omega)) fun _ _ => .map _ onlyOverflow_overflow

theorem reporting_value_failsOnly (valid : setup.Valid) (terms : ledger.terms = setup.terms) (known : Known ledger)
    (valued : Valued setup ledger) (enrolled : setup.participants.contains participant = true) :
    OnlyOverflow (ledger.reporting_value participant setup.reporting_currency setup.fx_rates) := by
  refine .bind ?_ fun currencies ran => .foldlM (fun currency member total => ?_) _
  · refine .bind (.mapM fun entry member => ?_) fun _ _ => .pure _
    obtain ⟨T,found⟩ := Ledger.positions_of_known known member
    rw [Ledger.terms_of_known found]
    exact .map _ (.pure T)
  · have converts := held_currencies_converts valid terms valued enrolled ran currency member
    refine .bind (net_liquidation_value_failsOnly known currency) fun value _ => .bind ?_ fun _ _ =>
      onlyOverflow_overflow
    refine .ite (fun _ => .pure _) fun foreign => .ite (fun _ => .pure _) fun _ => ?_
    exact convert_value_failsOnly valid valued (converts.resolve_left foreign)

end Valuation

end Bunting
