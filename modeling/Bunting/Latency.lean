import Mathlib.Data.String.Basic
import Bunting.Sequencer

/-!
The virtual geography of a run: where every team, every venue and the hub sit,
and the latency between locations. The jitter of a message is drawn from a
stream of its own for every directed pair of endpoints.
-/

namespace Bunting
open Stateful

/-- A fixed part plus jitter. -/
structure PathLatency where
  latency_us : Nat
  jitter_us : Nat

structure ParticipantPlacement where
  participant_id : ParticipantId
  location : String

structure VenuePlacement where
  venue_id : VenueId
  location : String

/-- A two-way link between two locations. -/
structure Link where
  between : String × String
  latency : PathLatency

structure LatencyMap where
  jitter_seed : UInt64
  default_location : String
  participants : List ParticipantPlacement
  venues : List VenuePlacement
  «local» : PathLatency
  links : List Link

def max_configured_delay_us : Nat := 10000000
def max_jitter_streams : Nat := 65536

def ordered (first second : String) : String × String := if first ≤ second then (first,second) else (second,first)
def link_key (link : Link) : String × String := ordered link.between.1 link.between.2

namespace LatencyMap

def link (map : LatencyMap) (first second : String) : Option PathLatency :=
  (map.links.find? (fun link => link_key link = ordered first second)).map Link.latency

def location (map : LatencyMap) (endpoint : Endpoint) : String :=
  let placed : Option String := match endpoint with
    | .Participant participant => (map.participants.find? (·.participant_id = participant)).map (·.location)
    | .Venue venue => (map.venues.find? (·.venue_id = venue)).map (·.location)
    | .Hub => none
  placed.getD map.default_location

/-- The latency between two endpoints before jitter. -/
def path (map : LatencyMap) (sender receiver : Endpoint) : PathLatency :=
  if map.location sender = map.location receiver then map.local
  else (map.link (map.location sender) (map.location receiver)).getD ⟨0,0⟩

end LatencyMap

def PathLatency.bounded (path : PathLatency) : Bool :=
  path.latency_us ≤ max_configured_delay_us && path.jitter_us ≤ max_configured_delay_us

def LatencyMap.validate (map : LatencyMap) : Except AdmissionError Unit := do
  refuse (!map.local.bounded || !map.links.all (·.latency.bounded)) (AdmissionError.InvalidPolicy "link latency exceeds 10 s")
  refuse (map.participants.length + map.venues.length + map.links.length > max_jitter_streams)
    (AdmissionError.InvalidPolicy "latency map too large")
  let placed := map.participants.map (·.location) ++ map.venues.map (·.location)
  refuse (map.default_location.isEmpty ||
    (placed ++ map.links.flatMap (fun link => [link.between.1,link.between.2])).any String.isEmpty)
    (AdmissionError.InvalidPolicy "empty location name")
  -- the source sorts each and looks for equal neighbours
  refuse (¬ (map.participants.map (·.participant_id)).Nodup ∨ ¬ (map.venues.map (·.venue_id)).Nodup ∨
    ¬ (map.links.map link_key).Nodup)
    (AdmissionError.InvalidPolicy "duplicate placement or link")
  refuse (map.links.any (fun link => link.between.1 = link.between.2))
    (AdmissionError.InvalidPolicy "a link joins a location to itself; use `local`")
  let used : OrdSet String := OrdMap.ofList ((map.default_location :: placed).map (·,()))
  refuse (¬ used.keys.Pairwise (fun first second => (map.link first second).isSome))
    (AdmissionError.InvalidPolicy "two locations in use have no link between them")

/-! ### Jitter -/

def splitmix64 (value : UInt64) : UInt64 :=
  let z := value + 0x9e3779b97f4a7c15
  let z := (z ^^^ (z >>> 30)) * 0xbf58476d1ce4e5b9
  let z := (z ^^^ (z >>> 27)) * 0x94d049bb133111eb
  z ^^^ (z >>> 31)

def endpoint_seed (endpoint : Endpoint) : UInt64 :=
  let fold (tag : UInt64) (value : Nat) :=
    let low := UInt64.ofNat value
    let high := UInt64.ofNat ((to_u64 (value >>> 64)).getD 0)
    splitmix64 (tag ^^^ splitmix64 (low ^^^ splitmix64 high))
  match endpoint with
  | .Participant participant => fold 1 participant
  | .Venue venue => fold 2 venue
  | .Hub => fold 3 0

/-- The draw at a position of the stream of a directed pair. -/
def LatencyMap.draw (map : LatencyMap) (sender receiver : Endpoint) (position : Nat) : UInt64 :=
  let stream := splitmix64 (map.jitter_seed ^^^ splitmix64 (endpoint_seed sender ^^^ splitmix64 (endpoint_seed receiver)))
  splitmix64 (stream ^^^ splitmix64 (UInt64.ofNat position))

/-- Teams before venues before the hub, each by id. -/
def Endpoint.rank : Endpoint → Nat ×ₗ Nat
  | .Participant participant => toLex (0,participant)
  | .Venue venue => toLex (1,venue)
  | .Hub => toLex (2,0)

theorem Endpoint.rank_injective : Function.Injective Endpoint.rank := by
  rintro (_ | _) (_ | _) same <;> simp_all [Endpoint.rank]

instance : LinearOrder Endpoint := LinearOrder.lift' _ Endpoint.rank_injective

/-- The real delay measured on one connection. -/
structure DelayEstimator where
  kernel_min_us : Option Nat
  probe_min_us : Option Nat

namespace DelayEstimator

def source : DelayEstimator → RttSource
  | ⟨none,none⟩ => .None
  | ⟨some _,none⟩ => .Kernel
  | ⟨none,some _⟩ => .Probe
  | ⟨some _,some _⟩ => .Both

def min_rtt_us : DelayEstimator → Option Nat
  | ⟨some kernel,some probe⟩ => some (min kernel probe)
  | ⟨kernel,probe⟩ => kernel <|> probe

def one_way_us (measured : DelayEstimator) : Option Nat := measured.min_rtt_us.map (· / 2)

end DelayEstimator

/-- Sender and receiver. -/
abbrev Direction := Endpoint × Endpoint

/-- The map, and how far each jitter stream was drawn. -/
structure LatencyModel where
  map : LatencyMap
  streams : OrdMap (Endpoint ×ₗ Endpoint) Nat

/-- An error of the source, or arithmetic that leaves its type. -/
inductive Stop
  | Error (error : AdmissionError)
  | Overflow

namespace LatencyModel

def new (map : LatencyMap) : Except AdmissionError LatencyModel := do
  map.validate
  pure ⟨map,∅⟩

def delay_with_position (sender receiver : Endpoint) : EStateM Stop LatencyModel (Nat × Option Nat) := do
  let s ← get
  let path := s.map.path sender receiver
  if path.jitter_us = 0 then
    return (path.latency_us,none)
  let key := toLex (sender,receiver)
  refuse (¬ s.streams.contains key ∧ s.streams.size ≥ max_jitter_streams) (Stop.Error (.TooManyStreams max_jitter_streams))
  let current := (s.streams.get? key).getD 0
  set { s with streams := s.streams.insert key ((current + 1) % 18446744073709551616) }
  let draw := s.map.draw sender receiver current
  let delay := path.latency_us + draw.toNat % (path.jitter_us + 1)
  refuse (path.jitter_us + 1 > 18446744073709551615 ∨ delay > 18446744073709551615) Stop.Overflow
  return (delay,some current)

def delay_us (sender receiver : Endpoint) : EStateM Stop LatencyModel Nat := Prod.fst <$> delay_with_position sender receiver

/-- Admission of a command of a team; its path delays the release. -/
def decide (received_us : Nat) (measured : DelayEstimator) (participant : ParticipantId) (destination : Endpoint) :
    EStateM Stop LatencyModel AdmissionRecord := do
  let (path,jitter_position) ← delay_with_position (.Participant participant) destination
  return {
    received_us, destination, jitter_position
    measured_one_way_us := measured.one_way_us
    rtt_source := measured.source
    path_latency_us := path
    release_us := min (received_us + path) 18446744073709551615
    arrival_sequence := 0 }

end LatencyModel

/-! ### Calls in any order -/

inductive LatencyCall
  | Delay (sender receiver : Endpoint)
  | Decide (received_us : Nat) (measured : DelayEstimator) (participant : ParticipantId) (destination : Endpoint)

namespace LatencyCall

def direction : LatencyCall → Direction
  | .Delay sender receiver => (sender,receiver)
  | .Decide _ _ participant destination => (.Participant participant,destination)

def serve : LatencyCall → EStateM Stop LatencyModel Nat
  | .Delay sender receiver => LatencyModel.delay_us sender receiver
  | .Decide received_us measured participant destination =>
    AdmissionRecord.path_latency_us <$> LatencyModel.decide received_us measured participant destination

theorem serve_run (call : LatencyCall) (s : LatencyModel) :
    call.serve.run s = (Prod.fst <$> LatencyModel.delay_with_position call.direction.1 call.direction.2).run s := by
  cases call with
  | Delay sender receiver => rfl
  | Decide received_us measured participant destination =>
    simp only [serve,LatencyModel.decide,direction,run_map,EStateM.run_bind]
    cases (LatencyModel.delay_with_position (.Participant participant) destination).run s <;> rfl

def delays (direction : Direction) (calls : List LatencyCall) (answers : List Nat) : List Nat :=
  ((calls.zip answers).filter (fun served => served.1.direction = direction)).map Prod.snd

end LatencyCall

namespace LatencyMap
variable {map : LatencyMap}

/-- The `k`-th delay of a directed pair. -/
def delay (map : LatencyMap) (direction : Direction) (k : Nat) : Nat :=
  let path := map.path direction.1 direction.2
  path.latency_us + (map.draw direction.1 direction.2 (k % 18446744073709551616)).toNat % (path.jitter_us + 1)

/-- The direction draws from a stream. -/
def jitters (map : LatencyMap) (direction : Direction) : Bool :=
  (map.path direction.1 direction.2).jitter_us ≠ 0

def jittered (map : LatencyMap) (directions : List Direction) : List Direction := directions.filter map.jitters

theorem path_bounded {x : Unit} (valid : map.validate = .ok x) (sender receiver : Endpoint) :
    (map.path sender receiver).latency_us ≤ max_configured_delay_us ∧
      (map.path sender receiver).jitter_us ≤ max_configured_delay_us := by
  simp only [validate,returned] at valid
  obtain ⟨fits,_⟩ := valid
  simp only [PathLatency.bounded,Bool.or_eq_true,Bool.not_eq_eq_eq_not,Bool.not_true,not_or,
    Bool.not_eq_false,Bool.and_eq_true,decide_eq_true_eq,List.all_eq_true] at fits
  unfold path
  split_ifs with together
  · exact fits.1
  · cases linked : map.link (map.location sender) (map.location receiver) with
    | none => simp
    | some latency =>
      obtain ⟨link,found,rfl⟩ := Option.map_eq_some_iff.mp linked
      exact fits.2 link (List.mem_of_find?_eq_some found)

theorem delay_between (map : LatencyMap) (direction : Direction) (k : Nat) :
    (map.path direction.1 direction.2).latency_us ≤ map.delay direction k ∧
      map.delay direction k ≤ (map.path direction.1 direction.2).latency_us +
        (map.path direction.1 direction.2).jitter_us :=
  ⟨Nat.le_add_right _ _,Nat.add_le_add_left (Nat.le_of_lt_succ (Nat.mod_lt _ (Nat.succ_pos _))) _⟩

/-- The streams stand where the calls so far have drawn them to. -/
structure Counted (map : LatencyMap) (past : List Direction) (s : LatencyModel) : Prop where
  same : s.map = map
  opened : ∀ direction x, s.streams.get? (toLex direction) = some x → direction ∈ map.jittered past
  drawn : ∀ direction, map.jitters direction →
    (s.streams.get? (toLex direction)).getD 0 = past.count direction % 18446744073709551616

variable {past all : List Direction} {s : LatencyModel} {x : Unit} (valid : map.validate = .ok x)
  (few : (map.jittered all).dedup.length < max_jitter_streams)
include few

/-- Fewer streams are open than directions may draw. -/
theorem Counted.room (counted : Counted map past s) (inside : past ⊆ all) : s.streams.size < max_jitter_streams := by
  have distinct : (s.streams.keys.map ofLex).Nodup := s.streams.keys_nodup.map ofLex.injective
  have opened : s.streams.keys.map ofLex ⊆ (map.jittered all).dedup := by
    intro direction member
    obtain ⟨key,there,rfl⟩ := List.mem_map.mp member
    obtain ⟨x,found⟩ := OrdMap.mem_keys.mp there
    exact List.mem_dedup.mpr (List.filter_subset _ inside (counted.opened _ x found))
  have fewer := (List.subperm_of_subset distinct opened).length_le
  rw [List.length_map,OrdMap.keys_length] at fewer
  exact lt_of_le_of_lt fewer few

include valid

/-- A call is answered with the next delay of its direction. -/
theorem Counted.serve (counted : Counted map past s) (call : LatencyCall) (inside : past ⊆ all) :
    ∃ t, call.serve.run s = .ok (map.delay call.direction (past.count call.direction)) t ∧
      Counted map (past ++ [call.direction]) t := by
  rw [LatencyCall.serve_run]
  obtain ⟨sender,receiver⟩ := call.direction
  obtain ⟨latency,jitter⟩ := path_bounded valid sender receiver
  rw [max_configured_delay_us] at latency jitter
  have most := (map.delay_between (sender,receiver) (past.count (sender,receiver))).2
  have room := counted.room few inside
  obtain ⟨rfl,opened,drawn⟩ := counted
  have kept {other : Direction} (member : other ∈ s.map.jittered past) :
      other ∈ s.map.jittered (past ++ [(sender,receiver)]) :=
    List.filter_subset _ (List.subset_append_left _ _) member
  simp only [delay] at most ⊢
  simp only [run_map,LatencyModel.delay_with_position,EStateM.run_bind,EStateM.run_get]
  generalize s.map.draw sender receiver = draw at most ⊢
  by_cases jitters : s.map.jitters (sender,receiver)
  · have drawing : ¬ (s.map.path sender receiver).jitter_us = 0 := of_decide_eq_true jitters
    have wide : ¬ 18446744073709551615 < (s.map.path sender receiver).jitter_us + 1 := by omega
    have fits := not_lt.mpr (most.trans (by omega : _ ≤ 18446744073709551615))
    simp only [if_neg drawing,EStateM.run_bind,run_refuse,ge_iff_le,not_le.mpr room,and_false,if_false,EStateM.run_set,
      drawn _ jitters,gt_iff_lt,wide,fits,or_false,EStateM.run_pure]
    refine ⟨_,rfl,rfl,fun other x found => ?_,fun other drawing => ?_⟩
    · by_cases here : other = (sender,receiver)
      · exact List.mem_filter.mpr ⟨by simp [here],here ▸ jitters⟩
      · rw [OrdMap.get?_insert_of_ne (toLex.injective.ne here)] at found
        exact kept (opened other x found)
    · by_cases here : other = (sender,receiver)
      · subst here
        simp [List.count_append]
      · rw [OrdMap.get?_insert_of_ne (toLex.injective.ne here),drawn other drawing]
        simp [Ne.symm here]
  · have steady : (s.map.path sender receiver).jitter_us = 0 := by simpa [LatencyMap.jitters] using jitters
    refine ⟨s,by simp [steady,Nat.mod_one],rfl,fun other x found => kept (opened other x found),fun other drawing => ?_⟩
    have apart : (sender,receiver) ≠ other := fun same => jitters (same ▸ drawing)
    simp [drawn other drawing,apart]

/-- Calls in a row are all answered, each direction from where it stood. -/
theorem Counted.serve_all (calls : List LatencyCall) (counted : Counted map past s)
    (inside : past ++ calls.map LatencyCall.direction ⊆ all) :
    ∃ answers t, (calls.mapM LatencyCall.serve).run s = .ok answers t ∧
      ∀ direction, LatencyCall.delays direction calls answers =
        (List.range' (past.count direction) ((calls.map LatencyCall.direction).count direction)).map (map.delay direction) := by
  induction calls generalizing past s with
  | nil => exact ⟨[],s,rfl,fun direction => rfl⟩
  | cons call calls ih =>
    obtain ⟨t,first,counted⟩ := counted.serve valid few call (List.Subset.trans (List.subset_append_left _ _) inside)
    obtain ⟨answers,u,rest,numbered⟩ := ih counted (by simpa using inside)
    refine ⟨map.delay call.direction (past.count call.direction) :: answers,u,?_,fun direction => ?_⟩
    · simp only [List.mapM_cons,EStateM.run_bind,first,rest,EStateM.run_pure]
    have later := numbered direction
    unfold LatencyCall.delays at later ⊢
    by_cases here : call.direction = direction
    · subst here
      simp [later,List.range'_succ]
    · simp [here,later]

end LatencyMap

/-- Whatever the calls and their order, the `k`-th delay of a direction is the same function of the map, the direction and
    `k`, within the jitter of its path; leaving out any calls changes no delay of a direction they do not use. -/
theorem latency_draws_apart {map : LatencyMap} {model : LatencyModel} (valid : LatencyModel.new map = .ok model)
    (calls : List LatencyCall) (few : (map.jittered (calls.map LatencyCall.direction)).dedup.length < max_jitter_streams) :
    ∃ answers model', (calls.mapM LatencyCall.serve).run model = .ok answers model' ∧
      (∀ direction, LatencyCall.delays direction calls answers =
        (List.range ((calls.map LatencyCall.direction).count direction)).map (map.delay direction)) ∧
      (∀ direction k, (map.path direction.1 direction.2).latency_us ≤ map.delay direction k ∧
        map.delay direction k ≤ (map.path direction.1 direction.2).latency_us + (map.path direction.1 direction.2).jitter_us) ∧
      ∀ others : LatencyCall → Bool, ∃ answers' model'',
        ((calls.filter (fun call => !others call)).mapM LatencyCall.serve).run model = .ok answers' model'' ∧
        ∀ direction, (∀ call ∈ calls, others call → call.direction ≠ direction) →
          LatencyCall.delays direction (calls.filter (fun call => !others call)) answers' =
            LatencyCall.delays direction calls answers := by
  simp only [LatencyModel.new,returned] at valid
  obtain ⟨valid,rfl⟩ := valid
  have start : LatencyMap.Counted map [] ⟨map,∅⟩ := ⟨rfl,fun _ _ found => (nomatch found),fun _ _ => rfl⟩
  obtain ⟨answers,t,ran,numbered⟩ := start.serve_all valid few calls (List.Subset.refl _)
  refine ⟨answers,t,ran,fun direction => by simpa [List.range_eq_range'] using numbered direction,map.delay_between,
    fun others => ?_⟩
  obtain ⟨fewer,u,without,again⟩ := start.serve_all valid few (calls.filter (fun call => !others call))
    (by simpa using List.map_subset _ (List.filter_subset_self _))
  refine ⟨fewer,u,without,fun direction apart => ?_⟩
  rw [again,numbered]
  congr 2
  simp only [List.count,List.countP_map,List.countP_filter]
  refine List.countP_congr fun call member => ?_
  have unused := apart call member
  simp only [Function.comp_apply,Bool.and_eq_true,beq_iff_eq,Bool.not_eq_true']
  grind

theorem latency_draws_apart_teams :
    let map : LatencyMap := ⟨7,"hub",[],[],⟨5,3⟩,[]⟩
    let calls := [LatencyCall.Delay (.Venue 1) (.Participant 2),.Decide 9 ⟨none,none⟩ 2 (.Venue 1)]
    ∃ answers model', (calls.mapM LatencyCall.serve).run ⟨map,∅⟩ = .ok answers model' :=
  have ⟨answers,model',ran,_⟩ := latency_draws_apart
    (show LatencyModel.new ⟨7,"hub",[],[],⟨5,3⟩,[]⟩ = .ok ⟨⟨7,"hub",[],[],⟨5,3⟩,[]⟩,∅⟩ from rfl)
    [.Delay (.Venue 1) (.Participant 2),.Decide 9 ⟨none,none⟩ 2 (.Venue 1)] (by decide +kernel)
  ⟨answers,model',ran⟩

end Bunting
