import Bunting.RiskEngine

/-!
The immutable inputs of a run: its instruments, the venues' listings of them,
and the participants with their limits and opening holdings.
-/

namespace Bunting
open Stateful

inductive ScenarioError
  | UnsupportedSchemaVersion
  | InvalidInstrument
  | InvalidCurrency
  | ListingBound
  | ParticipantBound
  | DuplicateListing
  | DuplicateParticipant
  | InvalidListing
  | InvalidParticipant
  | InvalidScenarioIdentity
  | InvalidSimulation
  | InvalidCalendar
  | PrimaryListing
  deriving DecidableEq

/-- Per-lot fees of one listing; a negative fee is a rebate. -/
structure FeeSchedule where
  taker_per_lot : Int := 0
  maker_per_lot : Int := 0
  deriving DecidableEq

/-- Largest per-lot charge either role can incur. -/
def FeeSchedule.bound (fees : FeeSchedule) : Int := max (max fees.taker_per_lot fees.maker_per_lot) 0

theorem FeeSchedule.bound_nonneg (fees : FeeSchedule) : 0 ≤ fees.bound := le_max_right _ _
theorem FeeSchedule.taker_le_bound (fees : FeeSchedule) : fees.taker_per_lot ≤ fees.bound :=
  (le_max_left _ _).trans (le_max_left _ _)
theorem FeeSchedule.maker_le_bound (fees : FeeSchedule) : fees.maker_per_lot ≤ fees.bound :=
  (le_max_right _ _).trans (le_max_left _ _)

/-- One venue's listing of an instrument. -/
structure ListingDefinition where
  key : ListingKey
  symbol : String
  price_bounds : PriceBounds
  fees : FeeSchedule := {}
  broker_ids : Bool := false
  primary : Bool := false
  tick_size : Int := 1
  deriving DecidableEq

/-- The economic definition every listing of one instrument shares. -/
structure InstrumentDefinition where
  instrument_id : InstrumentId
  symbol : String
  currency : CurrencyId
  multiplier : Int := 1
  shortable : Bool := false
  opening_mark : Option Int := none
  deriving DecidableEq

/-- Ledger terms derived from the definition. -/
def InstrumentDefinition.terms (instrument : InstrumentDefinition) : InstrumentTerms :=
  ⟨instrument.currency,instrument.multiplier,instrument.shortable⟩

def InstrumentDefinition.validate (instrument : InstrumentDefinition) : Except ScenarioError Unit :=
  refuse (instrument.instrument_id = 0 ∨ instrument.symbol.isEmpty ∨ instrument.symbol.utf8ByteSize > 128 ∨
    instrument.currency = 0 ∨ instrument.multiplier ≤ 0 ∨ instrument.opening_mark.any (fun mark => mark ≤ 0))
    ScenarioError.InvalidInstrument

structure ParticipantDefinition where
  participant_id : ParticipantId
  enabled : Bool
  limits : RiskLimits
  initial_cash : OrdMap CurrencyId Int := ∅
  initial_positions : OrdMap InstrumentId Int := ∅
  deriving DecidableEq

/-- Whether a participant is enrolled and pays from its own cash only. -/
def funded (participants : OrdMap ParticipantId ParticipantDefinition) (participant : ParticipantId) : Bool :=
  (participants.get? participant).any (fun definition => definition.limits.cash_constrained)

end Bunting
