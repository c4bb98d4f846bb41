import Bunting.OrdMap

/-!
The identifiers and fixed-point quantities of the market kernel. Identifiers are
compared and never computed with. Every operation the kernel checks returns
`none` where its result leaves the integer type it is kept in (`to_i64`,
`to_i128`, `to_u64`, `to_u32`).
-/

namespace Bunting

abbrev RunId := Nat
abbrev InstrumentId := Nat
abbrev ParticipantId := Nat
abbrev OrderId := Nat
abbrev CommandId := Nat
abbrev EventId := Nat
abbrev CorrelationId := Nat
abbrev VenueId := Nat
abbrev ScenarioId := Nat
abbrev ScenarioVersion := Nat
abbrev IterationId := Nat
abbrev CurrencyId := Nat
abbrev FacilityId := Nat
abbrev TenderId := Nat
abbrev NegotiationId := Nat
abbrev NewsId := Nat

/-- The result of a checked operation on 64-bit signed integers. -/
def to_i64 (x : Int) : Option Int :=
  if -9223372036854775808 ≤ x ∧ x ≤ 9223372036854775807 then some x else none
/-- The result of a checked operation on 128-bit signed integers. -/
def to_i128 (x : Int) : Option Int :=
  if -170141183460469231731687303715884105728 ≤ x ∧ x ≤ 170141183460469231731687303715884105727 then some x else none
/-- The result of a checked operation on 64-bit unsigned integers. -/
def to_u64 (n : Nat) : Option Nat := if n ≤ 18446744073709551615 then some n else none
/-- The result of a checked operation on 32-bit unsigned integers. -/
def to_u32 (n : Nat) : Option Nat := if n ≤ 4294967295 then some n else none

theorem to_i64_some {x y : Int} (fits : to_i64 x = some y) : y = x := by
  unfold to_i64 at fits; split_ifs at fits; simpa using fits.symm
theorem to_i64_fits {x y : Int} (fits : to_i64 x = some y) : -9223372036854775808 ≤ x ∧ x ≤ 9223372036854775807 := by
  unfold to_i64 at fits; split_ifs at fits with within; exact within
theorem to_i64_of_fits {x : Int} (least : -9223372036854775808 ≤ x) (most : x ≤ 9223372036854775807) : to_i64 x = some x :=
  if_pos ⟨least,most⟩
theorem to_i64_none {x : Int} (out : to_i64 x = none) (least : -9223372036854775808 ≤ x) : 9223372036854775807 < x := by
  by_contra most
  rw [to_i64_of_fits least (not_lt.mp most)] at out
  cases out
theorem to_i128_some {x y : Int} (fits : to_i128 x = some y) : y = x := by
  unfold to_i128 at fits; split_ifs at fits; simpa using fits.symm
theorem to_u64_some {n k : Nat} (fits : to_u64 n = some k) : k = n := by
  unfold to_u64 at fits; split_ifs at fits; simpa using fits.symm
theorem to_u32_some {n k : Nat} (fits : to_u32 n = some k) : k = n := by
  unfold to_u32 at fits; split_ifs at fits; simpa using fits.symm

inductive Side
  | Buy
  | Sell
  deriving DecidableEq

/-- The side an aggressor on this side trades against. -/
def Side.opposite : Side → Side
  | .Buy => .Sell
  | .Sell => .Buy

inductive NumericError
  | NonPositiveQuantity
  | InvalidPriceBounds
  | PriceOutOfBounds
  | Overflow
  deriving DecidableEq

/-- Venue-specific identity of one tradable listing. -/
structure ListingKey where
  venue_id : VenueId
  instrument_id : InstrumentId

theorem ListingKey.lex_injective :
    Function.Injective (fun k : ListingKey => (toLex (k.venue_id,k.instrument_id) : VenueId ×ₗ InstrumentId)) := by
  rintro ⟨a,b⟩ ⟨c,d⟩ same
  have pair : (a,b) = (c,d) := toLex.injective same
  cases pair
  rfl

/-- Listings are ordered by venue, then by instrument. -/
instance : LinearOrder ListingKey := LinearOrder.lift' _ ListingKey.lex_injective

/-- Inclusive price bounds. -/
structure PriceBounds where
  min : Int
  max : Int
  deriving DecidableEq

def PriceBounds.validate (bounds : PriceBounds) (price : Int) : Except NumericError Unit :=
  if price < bounds.min ∨ price > bounds.max then .error .PriceOutOfBounds else .ok ()

theorem PriceBounds.validate_ok {bounds : PriceBounds} {price : Int} {x : Unit}
    (valid : bounds.validate price = .ok x) : bounds.min ≤ price ∧ price ≤ bounds.max := by
  unfold PriceBounds.validate at valid
  split_ifs at valid with outside
  omega

end Bunting
