import Bunting.Sequencer

/-!
The public, anonymous changes of a listing: its trades, and what changed in its
displayed levels and orders.
-/

namespace Bunting
open Stateful

/-- A sum that stops at the greatest 64-bit value. -/
def u64_saturating_add (a b : Nat) : Nat := min (a + b) 18446744073709551615

/-- A public trade, without the orders and participants behind it. -/
structure PublicTrade where
  sequence : Nat
  logical_time : Nat
  instrument_id : InstrumentId
  listing_key : ListingKey
  price : Int
  quantity : Int
  maker_reference : Option Nat
  buyer_broker : Option ParticipantId
  seller_broker : Option ParticipantId
  deriving DecidableEq

/-- One price level's visible quantity changing. -/
structure LevelChange where
  side : Side
  price : Int
  previous : Int
  quantity : Int
  deriving DecidableEq

inductive OrderAction
  | Added
  | Changed
  | Deleted
  deriving DecidableEq

/-- One displayed order changing; the quantity is the one after the change. -/
structure OrderChange where
  action : OrderAction
  side : Side
  reference : Nat
  price : Int
  quantity : Int
  broker : Option ParticipantId
  deriving DecidableEq

abbrev Quote := Option (Int × Int)

/-- What one commit changed of one listing. -/
structure PublicListingUpdate where
  listing_key : ListingKey
  trades : List PublicTrade
  levels : List LevelChange
  best_bid : Quote
  best_ask : Quote
  orders : List OrderChange
  deriving DecidableEq

inductive MarketDataUpdateAction
  | New
  | Change
  | Delete
  deriving DecidableEq

inductive MarketDataIncrement
  | Trade (price quantity : Int) (reference : Option Nat) (buyer seller : Option ParticipantId)
  | Level (action : MarketDataUpdateAction) (side : Side) (price quantity : Int)
  | Order (action : MarketDataUpdateAction) (side : Side) (reference : Nat) (price quantity : Int)
      (broker : Option ParticipantId)
  deriving DecidableEq

end Bunting
