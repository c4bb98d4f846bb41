import Bunting.PublicUpdates

/-!
The consolidated tape: a processor at the hub that hears the public changes of
every venue, each after the delay of its path, and publishes one stream for each
instrument. It follows a listing as long as no change arrives before one of its
listing that was heard before it.
-/

namespace Bunting

/-- One consolidated change, as it is published. -/
structure TapeRecord where
  instrument_id : InstrumentId
  hub_us : Nat
  first_report : Nat
  entries : List (ListingKey × MarketDataIncrement)
  deriving DecidableEq

/-- A venue's change on its way to the processor. A gap takes one report number and publishes nothing. -/
structure InFlight where
  listing_key : ListingKey
  trades : List (Int × Int)
  best_bid : Quote
  best_ask : Quote
  gap : Bool
  deriving DecidableEq

/-- Arrival at the hub, then the order of the commits, then the place in the commit. -/
abbrev Arrival := Nat ×ₗ Nat ×ₗ Nat

structure TapeState where
  quotes : OrdMap ListingKey (Quote × Quote) := ∅
  next_report : OrdMap InstrumentId Nat := ∅
  in_flight : OrdMap Arrival InFlight := ∅
  failed : Option String := none
  /-- How often a path was asked for its delay. -/
  asked : Nat := 0
  deriving DecidableEq

/-- The processor. A path may answer differently each time it is asked. -/
structure ConsolidatedTape where
  processing_us : Nat
  capacity : Nat
  delay_to_hub : Nat → VenueId → Except String Nat

def ConsolidatedTape.new (processing_us capacity : Nat) (delay_to_hub : Nat → VenueId → Except String Nat) :
    ConsolidatedTape :=
  ⟨processing_us,max capacity 1,delay_to_hub⟩

namespace TapeState

/-- Seeds the quotes of listings the processor does not know. -/
def prime (s : TapeState) (quotes : List (ListingKey × Quote × Quote)) : TapeState :=
  quotes.foldl (fun s quote =>
    if s.quotes.contains quote.1 then s else { s with quotes := s.quotes.insert quote.1 quote.2 }) s

def fail (s : TapeState) (reason : String) : TapeState := { s with in_flight := ∅, failed := some reason }

def take_down (s : TapeState) (reason : String) : TapeState := if s.failed = none then s.fail reason else s

/-- What the tape says of one side of a quote. -/
def quote_change (key : ListingKey) (side : Side) (old new : Quote) : List (ListingKey × MarketDataIncrement) :=
  if old = new then []
  else match old,new with
    | old,none => [(key,.Level .Delete side (old.elim 0 Prod.fst) 0)]
    | none,some (price,quantity) => [(key,.Level .New side price quantity)]
    | some _,some (price,quantity) => [(key,.Level .Change side price quantity)]

def entries (s : TapeState) (change : InFlight) : List (ListingKey × MarketDataIncrement) :=
  let key := change.listing_key
  let old := (s.quotes.get? key).getD (none,none)
  change.trades.map (fun trade => (key,.Trade trade.1 trade.2 none none none)) ++
    quote_change key .Buy old.1 change.best_bid ++ quote_change key .Sell old.2 change.best_ask

/-- Applies a change that has reached the hub, and what it publishes. -/
def apply (s : TapeState) (hub_us : Nat) (change : InFlight) : TapeState × List TapeRecord :=
  let key := change.listing_key
  let quoted := { s with quotes := s.quotes.insert key (change.best_bid,change.best_ask) }
  let next := (s.next_report.get? key.instrument_id).getD 1
  let entries := s.entries change
  if change.gap then
    ({ quoted with next_report := s.next_report.insert key.instrument_id (u64_saturating_add next 1) },[])
  else if entries = [] then (quoted,[])
  else ({ quoted with next_report := s.next_report.insert key.instrument_id (u64_saturating_add next entries.length) },
    [⟨key.instrument_id,hub_us,next,entries⟩])

/-- Applies every change due by `now_us`; each iteration takes one out of flight. -/
def release_loop (now_us : Nat) : Nat → TapeState → TapeState × List TapeRecord
  | 0, s => (s,[])
  | fuel + 1, s =>
    match s.in_flight.first? with
    | none => (s,[])
    | some (arrival,change) =>
      if (ofLex arrival).1 > now_us then (s,[])
      else
        let applied := { s with in_flight := s.in_flight.erase arrival }.apply (ofLex arrival).1 change
        let later := release_loop now_us fuel applied.1
        (later.1,applied.2 ++ later.2)

def release (s : TapeState) (now_us : Nat) : TapeState × List TapeRecord := s.release_loop now_us s.in_flight.size

end TapeState

namespace ConsolidatedTape

/-- When a change that became durable at a time reaches the hub. -/
def arrives (tape : ConsolidatedTape) (durable_us delay : Nat) : Nat :=
  u64_saturating_add (u64_saturating_add durable_us delay) tape.processing_us

/-- Starts changes of one commit on their way to the hub, from a place in the commit on. -/
def start (tape : ConsolidatedTape) (ordinal durable_us : Nat) : Nat → List InFlight → TapeState → TapeState
  | _, [], s => s
  | index, change :: changes, s =>
    match tape.delay_to_hub s.asked change.listing_key.venue_id with
    | .error error => s.fail ("consolidated tape path failed: " ++ error)
    | .ok delay =>
      if s.in_flight.size ≥ tape.capacity then
        s.fail ("consolidated tape held more than " ++ toString tape.capacity ++ " changes in flight and is down")
      else tape.start ordinal durable_us (index + 1) changes { s with
        in_flight := s.in_flight.insert (toLex (tape.arrives durable_us delay,toLex (ordinal,index))) change
        asked := s.asked + 1 }

end ConsolidatedTape

def PublicListingUpdate.departs (update : PublicListingUpdate) : InFlight :=
  ⟨update.listing_key,update.trades.map fun trade => (trade.price,trade.quantity),update.best_bid,update.best_ask,false⟩

namespace ConsolidatedTape

/-- Starts the public changes of one committed batch on their way. -/
def hear (tape : ConsolidatedTape) (ordinal durable_us : Nat) (updates : List PublicListingUpdate) (s : TapeState) :
    TapeState :=
  if s.failed = none then tape.start ordinal durable_us 0 (updates.map PublicListingUpdate.departs) s else s

/-- Starts a skipped report of each listing whose public projection failed on its way. -/
def hear_gap (tape : ConsolidatedTape) (ordinal durable_us : Nat) (rebuilt : List (ListingKey × Quote × Quote))
    (s : TapeState) : TapeState :=
  if s.failed = none then
    tape.start ordinal durable_us 0 (rebuilt.map fun listing => ⟨listing.1,[],listing.2.1,listing.2.2,true⟩) s
  else s

end ConsolidatedTape

/-! ### Calls -/

inductive TapeCall
  | Prime (quotes : List (ListingKey × Quote × Quote))
  | Hear (ordinal durable_us : Nat) (updates : List PublicListingUpdate)
  | HearGap (ordinal durable_us : Nat) (rebuilt : List (ListingKey × Quote × Quote))
  | TakeDown (reason : String)
  | Release (now_us : Nat)

def TapeCall.changes : TapeCall → List InFlight
  | .Hear _ _ updates => updates.map PublicListingUpdate.departs
  | .HearGap _ _ rebuilt => rebuilt.map fun listing => ⟨listing.1,[],listing.2.1,listing.2.2,true⟩
  | _ => []

/-- The changes heard of one listing, in the order of the commits. -/
def heard (key : ListingKey) (calls : List TapeCall) : List InFlight :=
  (calls.flatMap TapeCall.changes).filter fun change => change.listing_key = key

/-- The trade of one listing that an entry tells. -/
def trade_of (key : ListingKey) : ListingKey × MarketDataIncrement → Option (Int × Int)
  | (at_key,.Trade price quantity ..) => if at_key = key then some (price,quantity) else none
  | _ => none

/-- The trades of one listing that records tell. -/
def told (key : ListingKey) (records : List TapeRecord) : List (Int × Int) :=
  (records.flatMap TapeRecord.entries).filterMap (trade_of key)

namespace ConsolidatedTape
variable (tape : ConsolidatedTape)

def called (s : TapeState) : TapeCall → TapeState × List TapeRecord
  | .Prime quotes => (s.prime quotes,[])
  | .Hear ordinal durable_us updates => (tape.hear ordinal durable_us updates s,[])
  | .HearGap ordinal durable_us rebuilt => (tape.hear_gap ordinal durable_us rebuilt s,[])
  | .TakeDown reason => (s.take_down reason,[])
  | .Release now_us => s.release now_us

/-- The tape after calls in a row, and what it has published. -/
def serve (calls : List TapeCall) : TapeState × List TapeRecord :=
  calls.foldl (fun served call => ((tape.called served.1 call).1,served.2 ++ (tape.called served.1 call).2)) ({},[])

/-- The changes of one commit with their arrivals, from a place in the commit on. -/
def departures (ordinal durable_us : Nat) : Nat → Nat → List InFlight → List (Arrival × InFlight)
  | _, _, [] => []
  | asked, index, change :: changes =>
    match tape.delay_to_hub asked change.listing_key.venue_id with
    | .error _ => []
    | .ok delay => (toLex (tape.arrives durable_us delay,toLex (ordinal,index)),change) ::
        departures ordinal durable_us (asked + 1) (index + 1) changes

def departs (s : TapeState) : TapeCall → List (Arrival × InFlight)
  | .Hear ordinal durable_us updates =>
    tape.departures ordinal durable_us s.asked 0 (updates.map PublicListingUpdate.departs)
  | .HearGap ordinal durable_us rebuilt => tape.departures ordinal durable_us s.asked 0
      (rebuilt.map fun listing => ⟨listing.1,[],listing.2.1,listing.2.2,true⟩)
  | _ => []

/-- Two changes arrive apart, those of one listing in the order given. -/
def Precedes (first second : Arrival × InFlight) : Prop :=
  first.1 ≠ second.1 ∧ (first.2.listing_key = second.2.listing_key → first.1 < second.1)

instance (first second : Arrival × InFlight) : Decidable (Precedes first second) := inferInstanceAs (Decidable (_ ∧ _))

/-- No change of a call arrives before one of its listing that is in flight. -/
def Orderly (s : TapeState) (call : TapeCall) : Prop :=
  (∀ first ∈ s.in_flight.entries, ∀ second ∈ tape.departs s call, Precedes first second) ∧
    (tape.departs s call).Pairwise Precedes

instance (s : TapeState) (call : TapeCall) : Decidable (tape.Orderly s call) := inferInstanceAs (Decidable (_ ∧ _))

end ConsolidatedTape

section Tracking
variable {key : ListingKey} {calls : List TapeCall} {s : TapeState} {sent records : List TapeRecord} {change : InFlight}
  {call : TapeCall}

theorem told_append (key : ListingKey) (first second : List TapeRecord) :
    told key (first ++ second) = told key first ++ told key second := by
  simp [told]

namespace TapeState

/-- The changes of a listing in flight, the next to arrive first. -/
def flying (key : ListingKey) (s : TapeState) : List InFlight := s.in_flight.values.filter fun change => change.listing_key = key

/-- What the tape will quote of a listing once its changes have landed. -/
def quote_due (key : ListingKey) (s : TapeState) : Option (Quote × Quote) :=
  ((s.flying key).getLast?.map fun change => (change.best_bid,change.best_ask)).or (s.quotes.get? key)

theorem quote_change_told (key at_key : ListingKey) (side : Side) (old new : Quote) :
    (quote_change at_key side old new).filterMap (trade_of key) = [] := by
  unfold quote_change
  split_ifs
  · rfl
  · split <;> rfl

theorem entries_told (s : TapeState) (change : InFlight) (key : ListingKey) :
    (s.entries change).filterMap (trade_of key) = if change.listing_key = key then change.trades else [] := by
  rw [entries,List.filterMap_append,List.filterMap_append,quote_change_told,quote_change_told,List.append_nil,
    List.append_nil,List.filterMap_map]
  split_ifs with same
  · simp [trade_of,same]
  · simp [trade_of,same]

theorem apply_told (s : TapeState) (hub_us : Nat) (key : ListingKey) (silent : change.gap = true → change.trades = []) :
    told key (s.apply hub_us change).2 = if change.listing_key = key then change.trades else [] := by
  have entries := s.entries_told change key
  rw [apply]
  split_ifs with gap none <;> simp_all [told]

theorem apply_quotes (s : TapeState) (hub_us : Nat) (change : InFlight) :
    (s.apply hub_us change).1.quotes = s.quotes.insert change.listing_key (change.best_bid,change.best_ask) := by
  rw [apply]
  split_ifs <;> rfl

theorem apply_in_flight (s : TapeState) (hub_us : Nat) (change : InFlight) :
    (s.apply hub_us change).1.in_flight = s.in_flight := by
  rw [apply]
  split_ifs <;> rfl

theorem apply_failed (s : TapeState) (hub_us : Nat) (change : InFlight) : (s.apply hub_us change).1.failed = s.failed := by
  rw [apply]
  split_ifs <;> rfl

end TapeState

/-- The changes heard of a listing are those published and those in flight, in this order. -/
structure Tracks (key : ListingKey) (changes : List InFlight) (s : TapeState) (sent : List TapeRecord) : Prop where
  silent : ∀ change ∈ s.in_flight.values, change.gap = true → change.trades = []
  trades : told key sent ++ (s.flying key).flatMap InFlight.trades = changes.flatMap InFlight.trades
  quotes : ∀ last, changes.getLast? = some last → s.quote_due key = some (last.best_bid,last.best_ask)

variable {changes : List InFlight}

theorem Tracks.prime (tracks : Tracks key changes s sent) (quotes : List (ListingKey × Quote × Quote)) :
    Tracks key changes (s.prime quotes) sent := by
  refine List.foldlRecOn (motive := fun s => Tracks key changes s sent) quotes _ tracks fun s tracks quote _ => ?_
  split_ifs with known
  · exact tracks
  · refine ⟨tracks.silent,tracks.trades,fun last there => ?_⟩
    have due := tracks.quotes last there
    -- A quote that is known to come is not the one seeded here.
    have kept : ∀ found, s.quotes.get? key = some found → (s.quotes.insert quote.1 quote.2).get? key = some found := by
      intro found there
      rw [OrdMap.get?_insert_of_ne,there]
      rintro rfl
      exact known (OrdMap.contains_iff.mpr ⟨found,there⟩)
    simp only [TapeState.quote_due,TapeState.flying] at due ⊢
    rcases Option.or_eq_some_iff.mp due with flying | ⟨none,found⟩
    · rw [flying,Option.some_or]
    · rw [none,Option.none_or]
      exact kept _ found

theorem Tracks.release_loop (now_us fuel : Nat) (tracks : Tracks key changes s sent) :
    Tracks key changes (s.release_loop now_us fuel).1 (sent ++ (s.release_loop now_us fuel).2) := by
  induction fuel generalizing s sent with
  | zero => simpa [TapeState.release_loop] using tracks
  | succ fuel ih =>
    rw [TapeState.release_loop]
    split
    · simpa using tracks
    next arrival change first =>
    split_ifs with later
    · simpa using tracks
    rw [← List.append_assoc]
    refine ih ?_
    have entries := OrdMap.entries_of_first? first
    have values : s.in_flight.values = change :: (s.in_flight.erase arrival).values := congrArg (List.map Prod.snd) entries
    have silent := tracks.silent
    rw [values] at silent
    refine ⟨?_,?_,fun last there => ?_⟩
    · rw [TapeState.apply_in_flight]
      exact fun other member => silent other (List.mem_cons_of_mem _ member)
    · rw [told_append,TapeState.apply_told _ _ _ (silent change List.mem_cons_self),← tracks.trades,List.append_assoc]
      simp only [TapeState.flying,TapeState.apply_in_flight,values,List.filter_cons,decide_eq_true_eq]
      split_ifs <;> rfl
    · have due := tracks.quotes last there
      simp only [TapeState.quote_due,TapeState.flying,TapeState.apply_in_flight,TapeState.apply_quotes,values,
        List.filter_cons,decide_eq_true_eq] at due ⊢
      by_cases same : change.listing_key = key
      · subst same
        rw [if_pos rfl,List.getLast?_cons] at due
        cases flying : ((s.in_flight.erase arrival).values.filter fun other =>
            decide (other.listing_key = change.listing_key)).getLast? with
        | none => simpa [flying] using due
        | some other => simpa [flying] using due
      · rw [if_neg same] at due
        rw [OrdMap.get?_insert_of_ne (Ne.symm same)]
        exact due

theorem TapeState.release_loop_failed (now_us fuel : Nat) : (s.release_loop now_us fuel).1.failed = s.failed := by
  induction fuel generalizing s with
  | zero => rfl
  | succ fuel ih =>
    rw [TapeState.release_loop]
    split
    · rfl
    · split_ifs
      · rfl
      · exact ih.trans (TapeState.apply_failed _ _ _)

/-- A change put in flight behind all of its listing is the last one heard. -/
theorem Tracks.insert {arrival : Arrival} (tracks : Tracks key changes s sent) (asked : Nat)
    (silent : change.gap = true → change.trades = [])
    (precedes : ∀ first ∈ s.in_flight.entries, ConsolidatedTape.Precedes first (arrival,change)) :
    Tracks key (changes ++ [change].filter fun change => change.listing_key = key)
      { s with in_flight := s.in_flight.insert arrival change, asked } sent := by
  have flying : TapeState.flying key { s with in_flight := s.in_flight.insert arrival change, asked } =
      s.flying key ++ [change].filter fun change => change.listing_key = key := by
    refine OrdMap.filter_insert_of_lt (fun first member => (precedes first member).1) fun ours first member theirs => ?_
    exact (precedes first member).2 ((of_decide_eq_true theirs).trans (of_decide_eq_true ours).symm)
  refine ⟨fun other member => ?_,?_,fun last there => ?_⟩
  · obtain ⟨at_arrival,found⟩ := OrdMap.mem_values.mp member
    exact OrdMap.of_insert found silent fun _ _ found => tracks.silent _ (OrdMap.mem_values.mpr ⟨_,found⟩)
  · rw [flying,List.flatMap_append,← List.append_assoc,tracks.trades,List.flatMap_append]
  · rw [TapeState.quote_due,flying]
    by_cases same : change.listing_key = key
    · simp only [same,decide_true,List.filter_cons_of_pos,List.filter_nil,List.getLast?_append,List.getLast?_singleton,
        Option.some_or,Option.some.injEq] at there ⊢
      simp [there]
    · simp only [same,decide_false,Bool.false_eq_true,not_false_eq_true,List.filter_cons_of_neg,List.filter_nil,
        List.append_nil] at there ⊢
      exact tracks.quotes last there

variable {tape : ConsolidatedTape} {ordinal durable_us : Nat}

theorem Tracks.start {index : Nat} {more : List InFlight} (tracks : Tracks key changes s sent)
    (silent : ∀ change ∈ more, change.gap = true → change.trades = [])
    (up : (tape.start ordinal durable_us index more s).failed = none)
    (behind : ∀ first ∈ s.in_flight.entries, ∀ second ∈ tape.departures ordinal durable_us s.asked index more,
      ConsolidatedTape.Precedes first second)
    (apart : (tape.departures ordinal durable_us s.asked index more).Pairwise ConsolidatedTape.Precedes) :
    Tracks key (changes ++ more.filter fun change => change.listing_key = key)
      (tape.start ordinal durable_us index more s) sent := by
  induction more generalizing s index changes with
  | nil => simpa [ConsolidatedTape.start] using tracks
  | cons change more ih =>
    rw [ConsolidatedTape.start] at up ⊢
    rw [ConsolidatedTape.departures] at behind apart
    split at up
    · cases up
    next delay answered =>
    simp only [answered] at behind apart ⊢
    split_ifs at up ⊢ with full
    · cases up
    obtain ⟨first_apart,rest_apart⟩ := List.pairwise_cons.mp apart
    have inserted := tracks.insert (s.asked + 1) (silent change List.mem_cons_self)
      fun first member => behind first member _ List.mem_cons_self
    rw [← List.singleton_append,List.filter_append,← List.append_assoc]
    refine ih inserted (fun other member => silent other (List.mem_cons_of_mem _ member)) up ?_ rest_apart
    intro first member second later
    rcases OrdMap.mem_insertEntries_imp member with rfl | member
    · exact first_apart second later
    · exact behind first member second (List.mem_cons_of_mem _ later)

/-! ### Runs -/

theorem ConsolidatedTape.called_up (up : (tape.called s call).1.failed = none) : s.failed = none := by
  cases call with
  | Prime quotes =>
    have same : (s.prime quotes).failed = s.failed := by
      refine List.foldlRecOn (motive := fun t => TapeState.failed t = s.failed) quotes _ rfl fun t same quote _ => ?_
      split_ifs
      · exact same
      · exact same
    exact same.symm.trans up
  | Hear | HearGap =>
    simp only [ConsolidatedTape.called,ConsolidatedTape.hear,ConsolidatedTape.hear_gap] at up
    split_ifs at up with before
    · exact before
    · exact up
  | TakeDown reason =>
    simp only [ConsolidatedTape.called,TapeState.take_down] at up
    split_ifs at up with before
    · exact before
    · exact up
  | Release now_us => exact (TapeState.release_loop_failed _ _).symm.trans up

theorem Tracks.called (tracks : Tracks key changes s sent)
    (up : (tape.called s call).1.failed = none) (orderly : tape.Orderly s call) :
    Tracks key (changes ++ call.changes.filter fun change => change.listing_key = key) (tape.called s call).1
      (sent ++ (tape.called s call).2) := by
  have before := ConsolidatedTape.called_up up
  cases call with
  | Prime quotes => simpa [TapeCall.changes,ConsolidatedTape.called] using tracks.prime quotes
  | Hear ordinal durable_us updates =>
    simp only [ConsolidatedTape.called,ConsolidatedTape.hear,if_pos before,List.append_nil] at up ⊢
    refine tracks.start (fun change member gap => ?_) up orderly.1 orderly.2
    obtain ⟨update,_,rfl⟩ := List.mem_map.mp member
    cases gap
  | HearGap ordinal durable_us rebuilt =>
    simp only [ConsolidatedTape.called,ConsolidatedTape.hear_gap,if_pos before,List.append_nil] at up ⊢
    refine tracks.start (fun change member _ => ?_) up orderly.1 orderly.2
    obtain ⟨listing,_,rfl⟩ := List.mem_map.mp member
    rfl
  | TakeDown reason =>
    simp only [ConsolidatedTape.called,TapeState.take_down,if_pos before] at up
    cases up
  | Release now_us =>
    simp only [TapeCall.changes,List.filter_nil,List.append_nil]
    exact tracks.release_loop now_us _

/-- In a run in which no change arrives before one of its listing that is in flight when it is heard, the changes heard of
    a listing are those published and then those in flight. -/
theorem Tracks.serve (orderly : ∀ before call after, calls = before ++ call :: after → tape.Orderly (tape.serve before).1 call)
    (up : (tape.serve calls).1.failed = none) :
    Tracks key (heard key calls) (tape.serve calls).1 (tape.serve calls).2 := by
  induction calls using List.reverseRecOn with
  | nil => exact ⟨by simp [ConsolidatedTape.serve,OrdMap.values,OrdMap.empty],rfl,by simp [heard]⟩
  | append_singleton calls call ih =>
    have serve : tape.serve (calls ++ [call]) = ((tape.called (tape.serve calls).1 call).1,
        (tape.serve calls).2 ++ (tape.called (tape.serve calls).1 call).2) := by
      simp [ConsolidatedTape.serve]
    have heard : heard key (calls ++ [call]) =
        heard key calls ++ call.changes.filter fun change => change.listing_key = key := by
      simp [Bunting.heard]
    rw [serve] at up ⊢
    rw [heard]
    refine Tracks.called (ih (fun before earlier after split => ?_) (ConsolidatedTape.called_up up)) up
      (orderly calls call [] rfl)
    exact orderly before earlier (after ++ [call]) (by simp [split])

/-- Once nothing is in flight, the tape quotes of each listing what the last change heard of it says, and it has published
    the trades of each listing in the order of the commits, if no change was heard that arrives before one of its listing
    in flight. -/
theorem tape_converges_to_the_venues (tape : ConsolidatedTape) (calls : List TapeCall)
    (orderly : ∀ before call after, calls = before ++ call :: after → tape.Orderly (tape.serve before).1 call)
    (up : (tape.serve calls).1.failed = none) (landed : (tape.serve calls).1.in_flight = ∅) (key : ListingKey) :
    (∀ last, (heard key calls).getLast? = some last →
      (tape.serve calls).1.quotes.get? key = some (last.best_bid,last.best_ask)) ∧
    told key (tape.serve calls).2 = (heard key calls).flatMap InFlight.trades := by
  have tracks : Tracks key (heard key calls) (tape.serve calls).1 (tape.serve calls).2 := Tracks.serve orderly up
  have flying : (tape.serve calls).1.flying key = [] := by
    rw [TapeState.flying,landed]
    rfl
  refine ⟨fun last there => ?_,?_⟩
  · have due := tracks.quotes last there
    rw [TapeState.quote_due,flying] at due
    exact due
  · rw [← tracks.trades,flying]
    simp

end Tracking

/-- A tape whose path takes the given times, one after another, and then none. -/
def sample_tape (delays : List Nat) : ConsolidatedTape := .new 0 16 fun asked _ => .ok (delays.getD asked 0)

/-- A trade at a price and an offer that rests at the next one. -/
def sample_update (price : Int) : PublicListingUpdate :=
  ⟨⟨1,1⟩,[⟨1,0,1,⟨1,1⟩,price,1,none,none,none⟩],[],none,some (price + 1,5),[]⟩

def sample_tape_calls : List TapeCall := [.Hear 0 0 [sample_update 100],.Hear 1 1 [sample_update 200],.Release 50]

/-- The second message of a listing overtakes the first: the tape quotes the first change for ever, and tells the second
    trade before the first. -/
theorem jitter_reverses_the_tape :
    ((sample_tape [10,0]).serve sample_tape_calls).1.failed = none ∧
    ((sample_tape [10,0]).serve sample_tape_calls).1.in_flight = ∅ ∧
    (heard ⟨1,1⟩ sample_tape_calls).getLast? = some (sample_update 200).departs ∧
    ((sample_tape [10,0]).serve sample_tape_calls).1.quotes.get? ⟨1,1⟩ = some (none,some (101,5)) ∧
    told ⟨1,1⟩ ((sample_tape [10,0]).serve sample_tape_calls).2 = [(200,1),(100,1)] := by
  decide +kernel

theorem tape_converges_without_overtaking :
    ((sample_tape [3,3]).serve sample_tape_calls).1.quotes.get? ⟨1,1⟩ = some (none,some (201,5)) ∧
    told ⟨1,1⟩ ((sample_tape [3,3]).serve sample_tape_calls).2 = [(100,1),(200,1)] := by
  have orderly : ∀ before call after, sample_tape_calls = before ++ call :: after →
      (sample_tape [3,3]).Orderly ((sample_tape [3,3]).serve before).1 call := by
    intro before call after split
    rcases before with _ | ⟨_,_ | ⟨_,_ | ⟨_,_⟩⟩⟩ <;> simp [sample_tape_calls] at split
    · obtain ⟨rfl,_⟩ := split
      decide +kernel
    · obtain ⟨rfl,rfl,_⟩ := split
      decide +kernel
    · obtain ⟨rfl,rfl,rfl,_⟩ := split
      decide +kernel
  have converges := tape_converges_to_the_venues (sample_tape [3,3]) sample_tape_calls orderly (by decide +kernel)
    (by decide +kernel) ⟨1,1⟩
  exact ⟨converges.1 (sample_update 200).departs (by decide +kernel),converges.2.trans (by decide +kernel)⟩

end Bunting
