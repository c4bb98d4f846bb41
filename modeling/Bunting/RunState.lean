import Bunting.Simulation
import Bunting.Calendar
import Bunting.Book

/-!
A run and the scenario it starts from. The state joins five structures that are
maintained apart: books, ledger, ownership records with the window of retired
orders, expiries, and counts of live orders. `Codec` stands for the JSON
encoding and its hash.
-/

namespace Bunting
open Stateful

def ENGINE_VERSION : Nat := 5
def ENGINE_SNAPSHOT_VERSION : Nat := 5
def SCENARIO_SCHEMA_VERSION : Nat := 2
def MAX_INSTRUMENTS : Nat := 256
def MAX_LISTINGS : Nat := 64
def MAX_PARTICIPANTS : Nat := 1024
@[irreducible] def MAX_LIVE_ORDERS : Nat := 250000
@[irreducible] def MAX_RETIRED_ORDERS : Nat := 65536

/-! ### Scenarios -/

structure ScenarioDefinition where
  schema_version : Nat := SCENARIO_SCHEMA_VERSION
  scenario_id : ScenarioId
  scenario_version : ScenarioVersion
  reporting_currency : CurrencyId
  fx_rates : List FxRate := []
  instruments : OrdMap InstrumentId InstrumentDefinition
  listings : OrdMap ListingKey ListingDefinition
  participants : OrdMap ParticipantId ParticipantDefinition
  simulation : SimulationScenario := {}
  calendar : Option Calendar := none
  deriving DecidableEq

namespace ScenarioDefinition
variable (scenario : ScenarioDefinition)

/-- The currency is the reporting currency or converts into it. -/
def currency_supported (currency : CurrencyId) : Bool :=
  currency = scenario.reporting_currency ∨ scenario.fx_rates.any (fun rate => rate.currency = currency)

def valid_rate (entry : FxRate × Nat) : Bool :=
  entry.1.currency ≠ scenario.reporting_currency ∧ 0 < entry.1.minor_units_per_lot ∧
    ¬ (scenario.fx_rates.take entry.2).any (fun other => other.currency = entry.1.currency) ∧
    (scenario.instruments.get? entry.1.instrument_id).any (fun instrument =>
      instrument.currency = scenario.reporting_currency)

/-- A listing names a defined instrument, has a price grid, and shares its
    venue's policy on broker identifiers. -/
def valid_listing (entry : ListingKey × ListingDefinition) : Bool :=
  entry.1.venue_id ≠ 0 ∧ entry.1.instrument_id ≠ 0 ∧ entry.1 = entry.2.key ∧ ¬ entry.2.symbol.isEmpty ∧
    entry.2.symbol.utf8ByteSize ≤ 128 ∧ scenario.instruments.contains entry.1.instrument_id ∧
    entry.2.price_bounds.validate entry.2.price_bounds.min = .ok () ∧ 1 ≤ entry.2.tick_size ∧
    entry.2.price_bounds.min.tmod entry.2.tick_size = 0 ∧
    ¬ scenario.listings.values.any (fun other =>
      other.key.venue_id = entry.1.venue_id ∧ other.broker_ids ≠ entry.2.broker_ids)

/-- An instrument has one primary listing at most, and one exactly where a
    calendar needs the closing price of one of several. -/
def valid_primary (instrument : InstrumentId) : Bool :=
  let listings := scenario.listings.values.filter (fun listing => listing.key.instrument_id = instrument)
  let primaries := (listings.filter ListingDefinition.primary).length
  ¬ (primaries > 1 ∨ (scenario.calendar.isSome ∧ listings.length > 1 ∧ primaries = 0))

def validate_listings : Except ScenarioError Unit := do
  refuse (¬ scenario.listings.entries.all scenario.valid_listing) ScenarioError.InvalidListing
  refuse (¬ scenario.instruments.keys.all scenario.valid_primary) ScenarioError.PrimaryListing

/-- An opening position has a defined instrument, a mark unless it is empty,
    and is short only where that is allowed. -/
def valid_position (entry : InstrumentId × Int) : Bool :=
  (scenario.instruments.get? entry.1).any (fun instrument =>
    (entry.2 = 0 ∨ instrument.opening_mark.isSome) ∧ (0 ≤ entry.2 ∨ instrument.shortable))

def valid_participant (entry : ParticipantId × ParticipantDefinition) : Bool :=
  entry.1 = entry.2.participant_id ∧ entry.2.initial_positions.size ≤ MAX_INSTRUMENTS ∧
    entry.2.initial_cash.size ≤ MAX_INSTRUMENTS ∧
    entry.2.initial_cash.keys.all (fun currency => currency ≠ 0 ∧ scenario.currency_supported currency) ∧
    entry.2.initial_positions.entries.all scenario.valid_position

def venues : OrdSet VenueId := OrdMap.ofList (scenario.listings.keys.map (fun listing => (listing.venue_id,())))

/-- The definition of one instrument, under its own identifier. -/
def validate_instrument (entry : InstrumentId × InstrumentDefinition) : Except ScenarioError Unit := do
  refuse (entry.1 ≠ entry.2.instrument_id) ScenarioError.InvalidInstrument
  entry.2.validate

def validate : Except ScenarioError Unit := do
  refuse (scenario.schema_version ≠ SCENARIO_SCHEMA_VERSION) ScenarioError.UnsupportedSchemaVersion
  refuse (scenario.scenario_id = 0 ∨ scenario.scenario_version = 0) ScenarioError.InvalidScenarioIdentity
  refuse (scenario.listings.isEmpty ∨ scenario.listings.size > MAX_LISTINGS) ScenarioError.ListingBound
  refuse (scenario.instruments.isEmpty ∨ scenario.instruments.size > MAX_INSTRUMENTS) ScenarioError.InvalidInstrument
  refuse (scenario.participants.size > MAX_PARTICIPANTS) ScenarioError.ParticipantBound
  forM scenario.instruments.entries validate_instrument
  refuse (scenario.reporting_currency = 0) ScenarioError.InvalidCurrency
  refuse (¬ scenario.fx_rates.zipIdx.all scenario.valid_rate) ScenarioError.InvalidCurrency
  refuse (scenario.instruments.values.any (fun instrument => ¬ scenario.currency_supported instrument.currency))
    ScenarioError.InvalidCurrency
  scenario.validate_listings
  refuse (¬ scenario.participants.entries.all scenario.valid_participant) ScenarioError.InvalidParticipant
  refuse (scenario.simulation.validate ≠ .ok ()) ScenarioError.InvalidSimulation
  refuse (scenario.simulation.referenced_instruments.any (fun instrument => ¬ scenario.instruments.contains instrument))
    ScenarioError.InvalidSimulation
  refuse (scenario.calendar.any (fun calendar => ¬ calendar.is_valid scenario.venues)) ScenarioError.InvalidCalendar

end ScenarioDefinition

/-! ### The state of a run -/

inductive SnapshotError
  | Serialization
  | UnsupportedVersion
  | HashMismatch
  | InvalidScenario
  deriving DecidableEq

inductive EngineError
  | InvalidScenario
  | UnknownListing
  | AmbiguousListing
  | SequenceConflict (current : Nat)
  | SequenceOverflow
  | OwnershipInvariant
  | Accounting
  | Simulation (error : SimulationError)
  | Snapshot (error : SnapshotError)
  deriving DecidableEq

structure EngineConfig where
  engine_version : Nat := ENGINE_VERSION
  max_listings : Nat := MAX_LISTINGS
  deriving DecidableEq

inductive OwnedOrderState
  | Active
  | Filled
  | Canceled
  deriving DecidableEq

/-- The private record of one order. -/
structure OwnedOrder where
  order_id : OrderId
  participant_id : ParticipantId
  listing_key : ListingKey
  side : Side
  limit_price : Int
  original_quantity : Int
  remaining_quantity : Int
  state : OwnedOrderState
  reservation : Reservation
  expires_at : Option Nat
  day : Bool
  anonymous : Bool
  deriving DecidableEq

structure ListingState where
  definition : ListingDefinition
  book : Book
  deriving DecidableEq

structure RunState where
  run_id : RunId
  sequence : Nat
  event_sequence : Nat
  iteration_id : IterationId
  scenario_id : ScenarioId
  scenario_version : ScenarioVersion
  scenario_hash : String
  config : EngineConfig
  reporting_currency : CurrencyId
  fx_rates : List FxRate
  instruments : OrdMap InstrumentId InstrumentDefinition
  listings : OrdMap ListingKey ListingState
  participants : OrdMap ParticipantId ParticipantDefinition
  ledger : Ledger
  ownership : OrdMap OrderId OwnedOrder
  retired : List OrderId
  expiries : OrdSet (Nat ×ₗ OrderId)
  live_orders : OrdMap ParticipantId Nat
  kill_switched : OrdSet ParticipantId
  simulation : SimulationState
  calendar : Option Calendar
  session_steps : OrdMap VenueId Nat
  day_trades : OrdMap ListingKey Int
  closes : OrdMap ListingKey Int
  deriving DecidableEq

/-- The hash of the JSON encoding of a scenario and of a run. -/
structure Codec where
  scenario_hash : ScenarioDefinition → Except SnapshotError String
  state_hash : RunState → Except SnapshotError String

def ScenarioDefinition.content_hash (codec : Codec) (scenario : ScenarioDefinition) : Except SnapshotError String :=
  match scenario.validate with
  | .error _ => .error .InvalidScenario
  | .ok _ => codec.scenario_hash scenario

/-! ### Starting a run -/

/-- Registers an instrument and its opening mark. -/
def open_instrument (entry : InstrumentId × InstrumentDefinition) : EStateM LedgerError Ledger Unit := do
  Ledger.configure_instrument entry.1 entry.2.terms
  match entry.2.opening_mark with
  | none => pure ()
  | some mark => Ledger.set_mark entry.1 mark

/-- The cost basis of an opening position. -/
def opening_basis (instrument : InstrumentDefinition) (quantity : Int) : Except LedgerError Int :=
  match instrument.opening_mark with
  | none => pure 0
  | some mark => notional mark quantity instrument.multiplier

def seed_holding (scenario : ScenarioDefinition) (participant : ParticipantId) (entry : InstrumentId × Int) :
    EStateM LedgerError Ledger Unit := do
  let instrument ← orElse (scenario.instruments.get? entry.1) LedgerError.UnknownInstrument
  let basis ← opening_basis instrument entry.2
  Ledger.seed_position participant entry.1 entry.2 basis

/-- Posts the opening cash and positions of one participant. -/
def seed_participant (scenario : ScenarioDefinition) (participant : ParticipantDefinition) :
    EStateM LedgerError Ledger Unit := do
  forM participant.initial_cash.entries (fun entry => Ledger.post_cash participant.participant_id entry.1 entry.2)
  forM participant.initial_positions.entries (seed_holding scenario participant.participant_id)

def open_ledger (scenario : ScenarioDefinition) : EStateM LedgerError Ledger Unit := do
  forM scenario.instruments.entries open_instrument
  forM scenario.participants.values (seed_participant scenario)

/-- The boundaries at run time zero, which apply silently: the books are empty. -/
def Calendar.passed_at_start (calendar : Calendar) (venue : VenueId) : Nat → Nat → Nat
  | 0, step => step
  | fuel + 1, step =>
    if (calendar.boundary venue step).any (fun boundary => boundary.at_ns = 0) then
      calendar.passed_at_start venue fuel (step + 1)
    else step

def Calendar.initial_steps (calendar : Calendar) : OrdMap VenueId Nat :=
  OrdMap.ofList (calendar.sessions.map (fun session =>
    (session.venue_id,calendar.passed_at_start session.venue_id (BOUNDARIES_PER_DAY * calendar.days) 0)))

def opening_ledger (scenario : ScenarioDefinition) : Except EngineError Ledger :=
  match (open_ledger scenario).run {} with
  | .ok _ ledger => .ok ledger
  | .error _ _ => .error .Accounting

def opening_simulation (scenario : ScenarioDefinition) : Except EngineError SimulationState :=
  match SimulationState.from_scenario scenario.simulation with
  | .ok simulation => .ok simulation
  | .error _ => .error .InvalidScenario

def pinned_hash (codec : Codec) (scenario : ScenarioDefinition) : Except EngineError String :=
  match scenario.content_hash codec with
  | .ok hash => .ok hash
  | .error e => .error (.Snapshot e)

namespace RunState

def from_scenario (codec : Codec) (run_id : RunId) (iteration_id : IterationId) (scenario : ScenarioDefinition) :
    Except EngineError RunState := do
  refuse (scenario.validate ≠ .ok ()) EngineError.InvalidScenario
  refuse (iteration_id = 0) EngineError.InvalidScenario
  let ledger ← opening_ledger scenario
  let simulation ← opening_simulation scenario
  let scenario_hash ← pinned_hash codec scenario
  pure {
    run_id, iteration_id, scenario_hash, ledger, simulation
    sequence := 0
    event_sequence := 0
    scenario_id := scenario.scenario_id
    scenario_version := scenario.scenario_version
    config := {}
    reporting_currency := scenario.reporting_currency
    fx_rates := scenario.fx_rates
    instruments := scenario.instruments
    listings := scenario.listings.mapValues (fun _ definition => ⟨definition,{}⟩)
    participants := scenario.participants
    ownership := ∅
    retired := []
    expiries := ∅
    live_orders := ∅
    kill_switched := ∅
    calendar := scenario.calendar
    session_steps := scenario.calendar.elim ∅ Calendar.initial_steps
    day_trades := ∅
    closes := ∅ }

/-! ### Snapshots -/

def live (run : RunState) : List OwnedOrder := run.ownership.values.filter (fun owned => owned.state = .Active)

/-- The live orders of each participant with one, counted over the records. -/
def live_by_participant (run : RunState) : Except SnapshotError (OrdMap ParticipantId Nat) :=
  run.live.foldlM (fun counts owned => do
    let count ← orElse (to_u32 ((counts.get? owned.participant_id).getD 0 + 1)) SnapshotError.UnsupportedVersion
    pure (counts.insert owned.participant_id count)) ∅

/-- A record rests in its listing's book exactly while it is live. -/
def agrees (run : RunState) (entry : OrderId × OwnedOrder) : Bool :=
  entry.1 = entry.2.order_id ∧ (entry.2.state = .Active ↔
    (run.listings.get? entry.2.listing_key).any (fun listing => listing.book.orders.contains entry.1))

/-- An expiry is that of a live order. -/
def pending (run : RunState) (expiry : Nat ×ₗ OrderId) : Bool :=
  (run.ownership.get? (ofLex expiry).2).any (fun owned =>
    owned.state = .Active ∧ owned.expires_at = some (ofLex expiry).1)

def validate (run : RunState) : Except SnapshotError Unit := do
  let live_by_participant ← run.live_by_participant
  let resting := (run.listings.values.map (fun listing => listing.book.orders.size)).sum
  refuse (run.config.engine_version ≠ ENGINE_VERSION ∨ run.config.max_listings = 0 ∨
    run.config.max_listings > MAX_LISTINGS ∨ run.listings.isEmpty ∨ run.listings.size > run.config.max_listings ∨
    run.participants.size > MAX_PARTICIPANTS ∨ run.live.length > MAX_LIVE_ORDERS ∨
    run.retired.length > MAX_RETIRED_ORDERS ∨ run.live.length ≠ resting ∨ live_by_participant ≠ run.live_orders ∨
    run.live.length + run.retired.length ≠ run.ownership.size ∨ ¬ run.ownership.entries.all run.agrees ∨
    ¬ run.expiries.keys.all run.pending ∨ run.simulation.policy_version ≠ SIMULATION_POLICY_VERSION ∨
    run.ledger.terms.size ≠ run.instruments.size ∨
    ¬ run.instruments.entries.all (fun entry => run.ledger.terms_of entry.1 = .ok entry.2.terms))
    SnapshotError.UnsupportedVersion

end RunState

structure EngineSnapshotEnvelope where
  schema_version : Nat
  state_hash : String
  state : RunState

namespace EngineSnapshotEnvelope

def new (codec : Codec) (state : RunState) : Except SnapshotError EngineSnapshotEnvelope := do
  let state_hash ← codec.state_hash state
  pure ⟨ENGINE_SNAPSHOT_VERSION,state_hash,state⟩

def verify (codec : Codec) (envelope : EngineSnapshotEnvelope) : Except SnapshotError Unit := do
  refuse (envelope.schema_version ≠ ENGINE_SNAPSHOT_VERSION) SnapshotError.UnsupportedVersion
  envelope.state.validate
  let state_hash ← codec.state_hash envelope.state
  refuse (state_hash ≠ envelope.state_hash) SnapshotError.HashMismatch

end EngineSnapshotEnvelope

end Bunting
