import Bunting.Commands

/-!
How a run starts. A scenario that validates gives a ledger with the opening
cash and positions and nothing reserved (`Seeded`), and a run that is sane.
-/

namespace Bunting
open Stateful

variable {scenario : ScenarioDefinition} {ledger' : Ledger} {x : Unit} {participant : ParticipantDefinition}

/-! ### The opening ledger -/

/-- The prices of an instrument are multiplied by something positive, and it opens at a positive mark. -/
structure InstrumentDefinition.Priced (instrument : InstrumentDefinition) : Prop where
  multiplier : 0 < instrument.multiplier
  mark : ∀ mark ∈ instrument.opening_mark, 0 < mark

/-- A ledger that holds opening cash and positions only. -/
structure Seeded (scenario : ScenarioDefinition) (ledger : Ledger) : Prop where
  terms : ledger.terms = scenario.instruments.mapValues (fun _ instrument => instrument.terms)
  marks : ∀ {i mark}, ledger.marks.get? i = some mark → 0 < mark
  reserved : ∀ p c, (ledger.cash_of p c).reserved = 0
  balance : (∀ participant ∈ scenario.participants.values, ∀ entry ∈ participant.initial_cash.entries, 0 ≤ entry.2) →
    ∀ p c, 0 ≤ (ledger.cash_of p c).balance
  lots : ∀ p i, ∃ quantity, (ledger.position_of p i).lots = { quantity } ∧ (quantity = 0 ∨
    ∃ participant ∈ scenario.participants.values, participant.participant_id = p ∧
      participant.initial_positions.get? i = some quantity)
  known : Known ledger
  signed : (∀ i D, scenario.instruments.get? i = some D → D.Priced) → ∀ p i, (ledger.position_of p i).Signed

/-- A ledger with the instruments of the scenario and no accounts. -/
structure Blank (opened : List (InstrumentId × InstrumentDefinition)) (ledger : Ledger) : Prop where
  terms : ∀ i T, ledger.terms.get? i = some T ↔ ∃ D : InstrumentDefinition, (i,D) ∈ opened ∧ D.terms = T
  marks : ∀ {i mark}, ledger.marks.get? i = some mark → 0 < mark
  cash : ledger.cash = ∅
  positions : ledger.positions = ∅

variable {ledger : Ledger}

theorem open_instrument_ok {opened : List (InstrumentId × InstrumentDefinition)}
    {entry : InstrumentId × InstrumentDefinition} (blank : Blank opened ledger)
    (distinct : ∀ D, (entry.1,D) ∈ opened → D = entry.2) (ran : (open_instrument entry).run ledger = .ok x ledger') :
    Blank (opened ++ [entry]) ledger' := by
  have terms (i : InstrumentId) (T : InstrumentTerms) : (ledger.terms.insert entry.1 entry.2.terms).get? i = some T ↔
      ∃ D : InstrumentDefinition, (i,D) ∈ opened ++ [entry] ∧ D.terms = T := by
    rw [OrdMap.get?_insert]
    split_ifs with here
    · subst here
      constructor
      · rintro same
        exact ⟨entry.2,by simp,Option.some.inj same⟩
      · rintro ⟨D,member,rfl⟩
        rcases List.mem_append.mp member with before | last
        · rw [distinct D before]
        · rw [← List.mem_singleton.mp last]
    · rw [blank.terms]
      refine exists_congr fun D => and_congr_left' ?_
      rw [List.mem_append,List.mem_singleton]
      exact ⟨.inl,fun member => member.resolve_right fun last => here (by rw [← last])⟩
  simp only [open_instrument,Ledger.configure_instrument,returned] at ran
  obtain ⟨_,ran⟩ := ran
  cases mark : entry.2.opening_mark with
  | none =>
    rw [mark] at ran
    cases ran
    exact { blank with terms }
  | some mark' =>
    rw [mark] at ran
    simp only [Ledger.set_mark,returned] at ran
    obtain ⟨_,_,positive,rfl⟩ := ran
    refine ⟨terms,fun {i m} found => ?_,blank.cash,blank.positions⟩
    exact OrdMap.of_insert found (by omega) fun _ _ => blank.marks

theorem open_instruments_ok
    (ran : (forM scenario.instruments.entries open_instrument).run {} = .ok x ledger) : Seeded scenario ledger := by
  have distinct {i : InstrumentId} {D D' : InstrumentDefinition} (first : (i,D) ∈ scenario.instruments.entries)
      (second : (i,D') ∈ scenario.instruments.entries) : D = D' := by
    have := (OrdMap.get?_eq_some_iff.mpr first).symm.trans (OrdMap.get?_eq_some_iff.mpr second)
    exact Option.some.inj this
  have whole : Meets (fun ledger : Ledger => ledger = {}) (forM scenario.instruments.entries open_instrument)
      (fun _ => Blank scenario.instruments.entries) (fun _ _ => True) := by
    refine (forM_meets (fun rest ledger => ∃ opened, scenario.instruments.entries = opened ++ rest ∧
      Blank opened ledger) (fun entry rest => ?_) scenario.instruments.entries).imp ?_ ?_ fun _ _ holds => holds
    · rintro ledger ⟨opened,split,blank⟩
      cases ran : (open_instrument entry).run ledger with
      | error e ledger' => trivial
      | ok x ledger' =>
        refine ⟨opened ++ [entry],by rw [split]; simp,open_instrument_ok blank (fun D before => ?_) ran⟩
        exact distinct (by rw [split]; exact List.mem_append_left _ before) (by rw [split]; simp)
    · rintro _ rfl
      exact ⟨[],rfl,by simp,by simp,rfl,rfl⟩
    · rintro _ ledger ⟨opened,split,blank⟩
      rw [List.append_nil] at split
      exact split ▸ blank
  have blank := whole.ok rfl ran
  have no_cash (p : ParticipantId) (c : CurrencyId) : ledger.cash_of p c = {} := by
    unfold Ledger.cash_of
    rw [blank.cash]
    rfl
  have no_lots (p : ParticipantId) (i : InstrumentId) : ledger.position_of p i = {} := by
    unfold Ledger.position_of
    rw [blank.positions]
    rfl
  refine ⟨OrdMap.ext_get? fun i => ?_,blank.marks,fun p c => by rw [no_cash],fun _ p c => by rw [no_cash],
    fun p i => ⟨0,by rw [no_lots]; rfl,.inl rfl⟩,fun p i held => ?_,fun _ p i => by rw [no_lots]; exact Position.signed_empty⟩
  · rw [OrdMap.get?_mapValues]
    cases found : scenario.instruments.get? i with
    | none =>
      cases there : ledger.terms.get? i with
      | none => rfl
      | some T =>
        obtain ⟨D,member,_⟩ := (blank.terms i T).mp there
        rw [OrdMap.get?_eq_some_iff.mpr member] at found
        cases found
    | some D => exact (blank.terms i _).mpr ⟨D,OrdMap.get?_eq_some_iff.mp found,rfl⟩
  · rw [blank.positions] at held
    cases held

theorem cash_of_insert (ledger : Ledger) (key : ParticipantId ×ₗ CurrencyId) (cash : CashBalance) (p : ParticipantId)
    (c : CurrencyId) : ({ ledger with cash := ledger.cash.insert key cash } : Ledger).cash_of p c =
      if toLex (p,c) = key then cash else ledger.cash_of p c := by
  simp only [Ledger.cash_of,OrdMap.get?_insert]
  split_ifs <;> rfl

theorem position_of_insert (ledger : Ledger) (key : ParticipantId ×ₗ InstrumentId) (position : Position) (p : ParticipantId)
    (i : InstrumentId) : ({ ledger with positions := ledger.positions.insert key position } : Ledger).position_of p i =
      if toLex (p,i) = key then position else ledger.position_of p i := by
  simp only [Ledger.position_of,OrdMap.get?_insert]
  split_ifs <;> rfl

theorem Seeded.post_cash
    {entry : CurrencyId × Int} (seeded : Seeded scenario ledger) (enrolled : participant ∈ scenario.participants.values)
    (member : entry ∈ participant.initial_cash.entries)
    (ran : (Ledger.post_cash participant.participant_id entry.1 entry.2).run ledger = .ok x ledger') :
    Seeded scenario ledger' := by
  simp only [Ledger.post_cash,returned,overflow] at ran
  obtain ⟨_,balance,fits,rfl⟩ := ran
  refine { seeded with reserved := fun p c => ?_, balance := fun nonneg p c => ?_ }
  · rw [cash_of_insert]
    split_ifs
    · exact seeded.reserved _ _
    · exact seeded.reserved p c
  · rw [cash_of_insert]
    split_ifs
    · have before := seeded.balance nonneg participant.participant_id entry.1
      have amount := nonneg participant enrolled entry member
      rw [to_i128_some fits]
      simp only
      omega
    · exact seeded.balance nonneg p c

/-- An opening position is carried at its mark. -/
theorem opening_basis_signed {instrument : InstrumentDefinition} {quantity basis : Int} {position : Position}
    (priced : instrument.Priced) (ran : opening_basis instrument quantity = .ok basis) (reserved : 0 ≤ position.reserved) :
    Position.Signed { position with quantity, cost_basis := basis } := by
  unfold opening_basis at ran
  split at ran
  · cases except_pure_eq_ok.mp ran
    exact ⟨fun _ => rfl,fun _ => le_rfl,fun _ => le_rfl,reserved⟩
  · next mark known =>
    have unit : 0 < mark * instrument.multiplier := mul_pos (priced.mark mark known) priced.multiplier
    have value : basis = quantity * (mark * instrument.multiplier) := by rw [notional_ok ran]; ring
    subst value
    refine ⟨fun flat => ?_,fun long => (mul_pos long unit).le,fun short => (mul_neg_of_neg_of_pos short unit).le,reserved⟩
    simp only at flat ⊢
    rw [flat,zero_mul]

theorem Seeded.seed_holding
    {entry : InstrumentId × Int} (seeded : Seeded scenario ledger) (enrolled : participant ∈ scenario.participants.values)
    (member : entry ∈ participant.initial_positions.entries)
    (ran : (seed_holding scenario participant.participant_id entry).run ledger = .ok x ledger') :
    Seeded scenario ledger' := by
  simp only [Bunting.seed_holding,Ledger.seed_position,returned] at ran
  obtain ⟨D,defined,basis,values,T,known,rfl⟩ := ran
  refine { seeded with lots := fun p i => ?_, known := fun p i held => ?_, signed := fun priced p i => ?_ }
  · by_cases here : toLex (p,i) = toLex (participant.participant_id,entry.1)
    · cases toLex.injective here
      obtain ⟨_,lots,_⟩ := seeded.lots participant.participant_id entry.1
      refine ⟨entry.2,?_,.inr ⟨participant,enrolled,rfl,OrdMap.get?_eq_some_iff.mpr member⟩⟩
      simp only [Position.lots,Lots.mk.injEq] at lots
      rw [position_of_insert,if_pos rfl]
      simp only [Position.lots,lots]
    · rw [position_of_insert,if_neg here]
      exact seeded.lots p i
  · rcases OrdMap.contains_insert.mp held with before | here
    · exact seeded.known p i before
    · cases toLex.injective here
      exact ⟨T,except_orElse_eq_ok.mp known⟩
  · rw [position_of_insert]
    split_ifs
    · exact opening_basis_signed (priced entry.1 D defined) values ((seeded.signed priced _ _).reserved)
    · exact seeded.signed priced p i

theorem opening_ledger_ok (ran : opening_ledger scenario = .ok ledger) : Seeded scenario ledger := by
  unfold opening_ledger at ran
  split at ran
  · next x ledger' opens =>
    cases ran
    simp only [open_ledger,returned] at opens
    obtain ⟨blank,first,later⟩ := opens
    have seeded := open_instruments_ok first
    -- Each participant's cash, then each of its positions.
    have seeds (participant : ParticipantDefinition) (enrolled : participant ∈ scenario.participants.values) :
        Meets (Seeded scenario) (seed_participant scenario participant) (fun _ => Seeded scenario) (fun _ _ => True) := by
      have cash := @forM_meets _ _ _ (fun _ _ => True) (fun (rest : List (CurrencyId × Int)) (ledger : Ledger) =>
        Seeded scenario ledger ∧ ∀ entry ∈ rest, entry ∈ participant.initial_cash.entries)
        (fun entry => Ledger.post_cash participant.participant_id entry.1 entry.2) (fun entry rest => by
          rintro ledger ⟨seeded,members⟩
          cases ran : (Ledger.post_cash participant.participant_id entry.1 entry.2).run ledger with
          | error e ledger' => trivial
          | ok x ledger' =>
            exact ⟨seeded.post_cash enrolled (members entry List.mem_cons_self) ran,
              fun other member => members other (List.mem_cons_of_mem _ member)⟩) participant.initial_cash.entries
      have positions := @forM_meets _ _ _ (fun _ _ => True) (fun (rest : List (InstrumentId × Int)) (ledger : Ledger) =>
        Seeded scenario ledger ∧ ∀ entry ∈ rest, entry ∈ participant.initial_positions.entries)
        (Bunting.seed_holding scenario participant.participant_id) (fun entry rest => by
          rintro ledger ⟨seeded,members⟩
          cases ran : (Bunting.seed_holding scenario participant.participant_id entry).run ledger with
          | error e ledger' => trivial
          | ok x ledger' =>
            exact ⟨seeded.seed_holding enrolled (members entry List.mem_cons_self) ran,
              fun other member => members other (List.mem_cons_of_mem _ member)⟩) participant.initial_positions.entries
      exact (cash.imp (fun _ seeded => ⟨seeded,fun _ member => member⟩) (fun _ _ holds => holds.1) fun _ _ _ => trivial).bind
        fun _ => positions.imp (fun _ seeded => ⟨seeded,fun _ member => member⟩) (fun _ _ holds => holds.1) fun _ _ _ => trivial
    have all := (@forM_meets _ _ _ (fun _ _ => True) (fun (rest : List ParticipantDefinition) (ledger : Ledger) =>
      Seeded scenario ledger ∧ ∀ participant ∈ rest, participant ∈ scenario.participants.values)
      (seed_participant scenario) (fun participant rest => by
        rintro ledger ⟨seeded,members⟩
        exact ((seeds participant (members participant List.mem_cons_self)).post fun _ _ seeded =>
          ⟨seeded,fun other member => members other (List.mem_cons_of_mem _ member)⟩) ledger seeded)
      scenario.participants.values).ok ⟨seeded,fun _ member => member⟩ later
    exact all.1
  · cases ran

/-! ### The opening run -/

/-- What a scenario that validates says, as far as a run depends on it. -/
structure Checked (scenario : ScenarioDefinition) : Prop where
  listings : scenario.listings.isEmpty = false ∧ scenario.listings.size ≤ MAX_LISTINGS
  participants : scenario.participants.size ≤ MAX_PARTICIPANTS
  instruments : ∀ entry ∈ scenario.instruments.entries, entry.2.Priced
  rates : ∀ rate ∈ scenario.fx_rates, 0 < rate.minor_units_per_lot
  currencies : ∀ instrument ∈ scenario.instruments.values, scenario.currency_supported instrument.currency = true
  listed : ∀ entry ∈ scenario.listings.entries, scenario.valid_listing entry = true
  enrolled : ∀ entry ∈ scenario.participants.entries, scenario.valid_participant entry = true
  referenced : ∀ i ∈ scenario.simulation.referenced_instruments, scenario.instruments.contains i = true
  calendar : ∀ calendar ∈ scenario.calendar, calendar.is_valid scenario.venues = true

theorem validate_instruments_ok {entries : List (InstrumentId × InstrumentDefinition)}
    (ran : (forM entries ScenarioDefinition.validate_instrument : Except ScenarioError Unit) = .ok x) :
    ∀ entry ∈ entries, entry.2.Priced := by
  induction entries with
  | nil => simp
  | cons entry rest ih =>
    simp only [List.forM_cons,returned,ScenarioDefinition.validate_instrument,InstrumentDefinition.validate] at ran
    obtain ⟨⟨_,valid⟩,later⟩ := ran
    intro other member
    rcases List.mem_cons.mp member with rfl | behind
    · simp only [not_or,not_le,Option.any_eq_true,not_exists] at valid
      exact ⟨valid.2.2.2.2.1,fun mark known => by simpa [Option.mem_def.mp known] using valid.2.2.2.2.2 mark⟩
    · exact ih later other behind

theorem ScenarioDefinition.validate_ok (ran : scenario.validate = .ok ()) : Checked scenario := by
  simp only [ScenarioDefinition.validate,ScenarioDefinition.validate_listings,returned] at ran
  obtain ⟨_,_,bound,_,participants,instruments,_,rates,currencies,⟨listed,_⟩,enrolled,_,referenced,calendar⟩ := ran
  refine ⟨?_,by omega,validate_instruments_ok instruments,fun rate member => ?_,fun instrument member => ?_,fun entry member => ?_,
    fun entry member => ?_,fun i member => ?_,fun c member => ?_⟩
  · simp only [not_or,Bool.not_eq_true] at bound
    exact ⟨bound.1,by omega⟩
  · obtain ⟨i,there⟩ := List.mem_iff_getElem?.mp member
    have valid := List.all_eq_true.mp (not_not.mp rates) (rate,i) (List.mem_zipIdx_iff_getElem?.mpr there)
    simp only [ScenarioDefinition.valid_rate,decide_eq_true_eq] at valid
    exact valid.2.1
  · by_contra other
    exact currencies (List.any_eq_true.mpr ⟨instrument,member,by simpa using other⟩)
  · exact List.all_eq_true.mp (not_not.mp listed) entry member
  · exact List.all_eq_true.mp (not_not.mp enrolled) entry member
  · by_contra other
    exact referenced (List.any_eq_true.mpr ⟨i,member,by simpa using other⟩)
  · rw [Option.mem_def.mp member] at calendar
    simpa using calendar

structure Opened (scenario : ScenarioDefinition) (run : RunState) : Prop where
  checked : Checked scenario
  seeded : Seeded scenario run.ledger
  simulation : SimulationState.from_scenario scenario.simulation = .ok run.simulation
  instruments : run.instruments = scenario.instruments
  participants : run.participants = scenario.participants
  listings : run.listings = scenario.listings.mapValues (fun _ definition => ⟨definition,{}⟩)
  rates : run.reporting_currency = scenario.reporting_currency ∧ run.fx_rates = scenario.fx_rates
  config : run.config = {}
  calendar : run.calendar = scenario.calendar
  steps : run.session_steps = scenario.calendar.elim ∅ Calendar.initial_steps
  fresh : run.ownership = ∅ ∧ run.retired = [] ∧ run.expiries = ∅ ∧ run.live_orders = ∅ ∧ run.day_trades = ∅ ∧
    run.closes = ∅ ∧ run.event_sequence = 0 ∧ run.kill_switched = ∅

theorem RunState.from_scenario_ok {codec : Codec} {run_id : RunId} {iteration_id : IterationId} {run : RunState}
    (ran : RunState.from_scenario codec run_id iteration_id scenario = .ok run) : Opened scenario run := by
  simp only [RunState.from_scenario,returned,ne_eq,not_not] at ran
  obtain ⟨valid,_,ledger,opens,simulation,starts,_,_,rfl⟩ := ran
  refine ⟨ScenarioDefinition.validate_ok valid,opening_ledger_ok opens,?_,rfl,rfl,rfl,⟨rfl,rfl⟩,rfl,rfl,rfl,rfl,rfl,rfl,rfl,
    rfl,rfl,rfl,rfl⟩
  unfold opening_simulation at starts
  split at starts
  · next made => cases starts; exact made
  · cases starts

namespace Opened
variable {run : RunState}

variable (opened : Opened scenario run)
include opened

theorem definitions : run.setup.definitions = scenario.listings := by
  refine OrdMap.ext_get? fun key => ?_
  simp only [RunState.setup,opened.listings,OrdMap.get?_mapValues,Option.map_map]
  cases scenario.listings.get? key <;> rfl

theorem valid : run.setup.Valid := by
  have terms : run.setup.terms = scenario.instruments.mapValues (fun _ instrument => instrument.terms) := opened.seeded.terms
  have known {i : InstrumentId} {T : InstrumentTerms} (found : run.setup.terms.get? i = some T) :
      ∃ D, scenario.instruments.get? i = some D ∧ D.terms = T := by
    rw [terms,OrdMap.get?_mapValues] at found
    exact Option.map_eq_some_iff.mp found
  have listed {key : ListingKey} {D : ListingDefinition} (found : run.setup.definitions.get? key = some D) :
      scenario.valid_listing (key,D) = true := by
    rw [opened.definitions] at found
    exact opened.checked.listed (key,D) (OrdMap.get?_eq_some_iff.mp found)
  simp only [ScenarioDefinition.valid_listing,decide_eq_true_eq] at listed
  constructor
  case terms => rw [terms]; simp only [RunState.setup,opened.instruments]
  case multiplier =>
    intro i T found
    obtain ⟨D,there,rfl⟩ := known found
    exact (opened.checked.instruments (i,D) (OrdMap.get?_eq_some_iff.mp there)).multiplier
  case converts =>
    intro i T found
    obtain ⟨D,there,rfl⟩ := known found
    have supported := opened.checked.currencies D (OrdMap.mem_values.mpr ⟨i,there⟩)
    simp only [ScenarioDefinition.currency_supported,decide_eq_true_eq,List.any_eq_true] at supported
    unfold Setup.Converts
    simp only [RunState.setup,opened.rates.1,opened.rates.2]
    exact supported
  case rates => simp only [RunState.setup,opened.rates.2]; exact opened.checked.rates
  case listed =>
    intro key D found
    obtain ⟨_,_,same,_,_,defined,_⟩ := listed found
    obtain ⟨I,there⟩ := OrdMap.contains_iff.mp defined
    refine ⟨same.symm,I.terms,?_⟩
    rw [terms,OrdMap.get?_mapValues,there]
    rfl
  case bounds =>
    intro key D found
    obtain ⟨_,_,_,_,_,_,bounds,_⟩ := listed found
    exact (PriceBounds.validate_ok bounds).2
  case ticks =>
    intro key D found
    obtain ⟨_,_,_,_,_,_,_,ticks,_⟩ := listed found
    exact ticks
  case config => exact opened.config
  case listings => rw [opened.definitions]; exact opened.checked.listings
  case participants => simp only [RunState.setup,opened.participants]; exact opened.checked.participants

theorem sound : SimSound run.setup run.simulation := by
  have starts := opened.simulation
  simp only [SimulationState.from_scenario,SimulationScenario.validate,returned,not_not] at starts
  obtain ⟨⟨_,_,settled⟩,distinct,same⟩ := starts
  have sorted := List.perm_insertionSort ScheduledAction.before scenario.simulation.scheduled_actions
  rw [← same]
  refine ⟨rfl,List.pairwise_insertionSort _ _,(sorted.map ScheduledAction.action_id).nodup_iff.mpr distinct,
    fun action member => ?_,
    fun {id facility} found i uses => ?_,fun {id job} found => (by cases found)⟩
  · have there := sorted.mem_iff.mp member
    by_contra unsettled
    exact settled (List.any_eq_true.mpr ⟨action,there,by simpa using unsettled⟩)
  · have referenced := opened.checked.referenced i (List.mem_append_left _ (List.mem_flatMap.mpr
      ⟨facility,OrdMap.mem_values.mpr ⟨id,found⟩,uses⟩))
    obtain ⟨D,there⟩ := OrdMap.contains_iff.mp referenced
    have terms : run.setup.terms = scenario.instruments.mapValues (fun _ instrument => instrument.terms) := opened.seeded.terms
    exact ⟨D.terms,by rw [terms,OrdMap.get?_mapValues,there]; rfl⟩

theorem accounts : Accounts run.setup run.ledger run.ownership := by
  have seeded := opened.seeded
  rw [opened.fresh.1]
  refine ⟨rfl,fun counter => ?_,fun p i T found fixed => ?_,seeded.known⟩
  · have none : held run.ledger.terms ∅ counter = 0 := rfl
    rw [none]
    cases counter with
    | Cash p c => exact seeded.reserved p c
    | OpenBuy p i | OpenSell p i | Inventory p i =>
      obtain ⟨_,lots,_⟩ := seeded.lots p i
      simp only [Position.lots,Lots.mk.injEq] at lots
      simp only [Counter.read,lots]
  · -- A position that cannot be short did not start short.
    obtain ⟨quantity,lots,opening⟩ := seeded.lots p i
    simp only [Position.lots,Lots.mk.injEq] at lots
    rw [lots.1,lots.2.1]
    rcases opening with rfl | ⟨participant,enrolled,_,held⟩
    · exact le_refl _
    · obtain ⟨id,there⟩ := OrdMap.mem_values.mp enrolled
      have valid := opened.checked.enrolled (id,participant) (OrdMap.get?_eq_some_iff.mp there)
      simp only [ScenarioDefinition.valid_participant,decide_eq_true_eq] at valid
      have position := List.all_eq_true.mp valid.2.2.2.2 (i,quantity) (OrdMap.get?_eq_some_iff.mp held)
      rw [seeded.terms,OrdMap.get?_mapValues] at found
      obtain ⟨D,defined,rfl⟩ := Option.map_eq_some_iff.mp found
      have long : D.shortable = false := fixed
      simp only [ScenarioDefinition.valid_position,defined,Option.any_some,decide_eq_true_eq,long] at position
      simpa using position.2

theorem book (key : ListingKey) : run.book key = {} := by
  unfold RunState.book
  rw [opened.listings,OrdMap.get?_mapValues]
  cases scenario.listings.get? key <;> rfl

theorem sane : Sane run := by
  obtain ⟨ownership,retired,expiries,live_orders,day_trades,closes,_⟩ := opened.fresh
  refine ⟨opened.valid,opened.sound,fun now => ⟨rfl,rfl,rfl,fun key => ?_,?_,?_,?_,?_,⟨by simp,rfl,rfl⟩,.refl⟩⟩
  · rw [opened.book]; exact Book.sound_empty
  · simp only [ownership,expiries,retired,live_orders]
    refine ⟨⟨fun found => (by cases found),fun key id => ?_,fun found => (by cases found),fun time id => ?_⟩,
      fun found => (by cases found),fun found => (by cases found),⟨by simp,fun id _ => ?_,fun id flies => (by cases flies),
      Nat.zero_le _,fun p => rfl,Nat.zero_le _⟩⟩
    · rw [RunState.views,opened.book]; rfl
    · simp [OrdMap.contains]
    · simp
  · exact ⟨opened.accounts,fun _ => rfl,fun _ => rfl,opened.seeded.marks,False.elim,False.elim⟩
  · simp [day_trades]
  · simp [closes]

end Opened

end Bunting
