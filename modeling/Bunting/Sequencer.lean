import Bunting.Stateful
import Bunting.MarketTypes

/-!
The admission sequencer: a bounded queue that releases commands in the order of
their release time, ties in the order of admission. A release is raised to the
greatest clock the sequencer has seen, so that nothing admitted later is ordered
before what was released.
-/

namespace Bunting
open Stateful

inductive AdmissionError
  | QueueFull (limit : Nat)
  | TooManyStreams (limit : Nat)
  | InvalidPolicy (reason : String)
  deriving DecidableEq

/-- The measurements an access latency came from. -/
inductive RttSource
  | None
  | Kernel
  | Probe
  | Both
  deriving DecidableEq

inductive Endpoint
  | Participant (participant_id : ParticipantId)
  | Venue (venue_id : VenueId)
  | Hub
  deriving DecidableEq

/-- The inputs and outputs of one admission decision. -/
structure AdmissionRecord where
  received_us : Nat
  measured_one_way_us : Option Nat
  rtt_source : RttSource
  destination : Endpoint
  path_latency_us : Nat
  jitter_position : Option Nat
  release_us : Nat
  arrival_sequence : Nat
  deriving DecidableEq

def AdmissionRecord.key (record : AdmissionRecord) : Nat ×ₗ Nat := toLex (record.release_us,record.arrival_sequence)

/-- A bounded release queue. The heap lists its keys in order. -/
structure Sequencer (T : Type) where
  capacity : Nat
  next_arrival : Nat
  floor_us : Nat
  heap : List (Nat ×ₗ Nat)
  items : OrdMap Nat (AdmissionRecord × T)

section Queue
variable {T : Type}

def Sequencer.new (capacity : Nat) : Sequencer T := ⟨max capacity 1,0,0,[],∅⟩

/-- Queues one command; its release is raised to the clock. -/
def Sequencer.admit (now_us : Nat) (record : AdmissionRecord) (item : T) :
    EStateM AdmissionError (Sequencer T) AdmissionRecord := do
  let s ← get
  refuse (s.items.size ≥ s.capacity) (AdmissionError.QueueFull s.capacity)
  let floor_us := max s.floor_us now_us
  let record := { record with release_us := max record.release_us floor_us, arrival_sequence := s.next_arrival }
  set { s with
    floor_us
    next_arrival := (s.next_arrival + 1) % 18446744073709551616
    heap := s.heap.orderedInsert (· ≤ ·) record.key
    items := s.items.insert record.arrival_sequence (record,item) }
  pure record

/-- Removes the head if its release time has passed. -/
def Sequencer.pop_due (now_us : Nat) (s : Sequencer T) : Option (AdmissionRecord × T) × Sequencer T :=
  let s := { s with floor_us := max s.floor_us now_us }
  match s.heap with
  | [] => (none,s)
  | key :: rest =>
    if (ofLex key).1 > s.floor_us then (none,s)
    else (s.items.get? (ofLex key).2,{ s with heap := rest, items := s.items.erase (ofLex key).2 })

/-- Release time of the head. -/
def Sequencer.next_release_us (s : Sequencer T) : Option Nat := s.heap.head?.map (fun key => (ofLex key).1)

def Sequencer.len (s : Sequencer T) : Nat := s.items.size

end Queue

/-! ### Calls -/

inductive Call (T : Type)
  | Admit (now_us : Nat) (record : AdmissionRecord) (item : T)
  | PopDue (now_us : Nat)

inductive Served (T : Type)
  | Admitted (now_us : Nat) (record : AdmissionRecord) (item : T)
  | Refused (now_us : Nat)
  | Released (now_us : Nat) (record : AdmissionRecord) (item : T)
  | Waiting (now_us : Nat)

namespace Served
variable {T : Type}

def now_us : Served T → Nat
  | .Admitted now_us .. | .Refused now_us | .Released now_us .. | .Waiting now_us => now_us

def admitted : Served T → Option (AdmissionRecord × T)
  | .Admitted _ record item => some (record,item)
  | _ => none

def released : Served T → Option (AdmissionRecord × T)
  | .Released _ record item => some (record,item)
  | _ => none

end Served

namespace Sequencer
variable {T : Type}

def serve (s : Sequencer T) : Call T → Served T × Sequencer T
  | .Admit now_us record item =>
    match Sequencer.admit now_us record item |>.run s with
    | .ok record s' => (.Admitted now_us record item,s')
    | .error _ s' => (.Refused now_us,s')
  | .PopDue now_us =>
    match s.pop_due now_us with
    | (some (record,item),s') => (.Released now_us record item,s')
    | (none,s') => (.Waiting now_us,s')

def serve_all (s : Sequencer T) (calls : List (Call T)) : List (Served T) × Sequencer T :=
  calls.foldl (fun served call =>
    let next := served.2.serve call
    (served.1 ++ [next.1],next.2)) ([],s)

theorem serve_all_concat (s : Sequencer T) (calls : List (Call T)) (call : Call T) :
    s.serve_all (calls ++ [call]) =
      ((s.serve_all calls).1 ++ [((s.serve_all calls).2.serve call).1],((s.serve_all calls).2.serve call).2) := by
  simp [serve_all]

end Sequencer

/-! ### The queue -/

/-- What the answers say was admitted, and what they say was released. -/
def admitted {T : Type} (log : List (Served T)) : List (AdmissionRecord × T) := log.filterMap Served.admitted
def released {T : Type} (log : List (Served T)) : List (AdmissionRecord × T) := log.filterMap Served.released

namespace Sequencer
variable {T : Type} {s : Sequencer T} {queue rest : List (AdmissionRecord × T)} {x : AdmissionRecord × T} {now_us : Nat}

/-- The sequencer stands for a queue in the order of release. -/
structure Holds (s : Sequencer T) (queue : List (AdmissionRecord × T)) : Prop where
  heap : s.heap = queue.map (fun x => x.1.key)
  sorted : queue.Pairwise (fun x y => x.1.key ≤ y.1.key)
  arrivals : (queue.map (fun x => x.1.arrival_sequence)).Nodup
  items : ∀ a x, s.items.get? a = some x ↔ x ∈ queue ∧ x.1.arrival_sequence = a
  size : s.items.size = queue.length

theorem holds_new (capacity : Nat) : Holds (new capacity : Sequencer T) [] :=
  ⟨rfl,.nil,.nil,fun _ _ => ⟨fun found => (nomatch found),fun member => (nomatch member.1)⟩,rfl⟩

/-- The queue with one more, in its place. -/
def enqueue (x : AdmissionRecord × T) (queue : List (AdmissionRecord × T)) : List (AdmissionRecord × T) :=
  queue.orderedInsert (fun x y => x.1.key ≤ y.1.key) x

theorem enqueue_perm (x : AdmissionRecord × T) (queue : List (AdmissionRecord × T)) : (enqueue x queue).Perm (x :: queue) :=
  List.perm_orderedInsert _ x queue

instance : Std.Total (fun x y : AdmissionRecord × T => x.1.key ≤ y.1.key) := ⟨fun _ _ => le_total _ _⟩
instance : IsTrans (AdmissionRecord × T) (fun x y => x.1.key ≤ y.1.key) := ⟨fun _ _ _ => le_trans⟩

theorem Holds.enqueue (holds : s.Holds queue) (fresh : ∀ y ∈ queue, y.1.arrival_sequence ≠ x.1.arrival_sequence)
    (floor_us next_arrival : Nat) :
    Holds { s with
      floor_us, next_arrival
      heap := s.heap.orderedInsert (· ≤ ·) x.1.key
      items := s.items.insert x.1.arrival_sequence x } (enqueue x queue) := by
  have perm := enqueue_perm x queue
  have absent : s.items.get? x.1.arrival_sequence = none := by
    cases found : s.items.get? x.1.arrival_sequence with
    | none => rfl
    | some y =>
      obtain ⟨member,same⟩ := (holds.items _ _).mp found
      exact absurd same (fresh y member)
  refine ⟨?_,holds.sorted.orderedInsert x queue,?_,fun a y => ?_,?_⟩
  · simp only [holds.heap]
    exact (List.map_orderedInsert (fun x y : AdmissionRecord × T => x.1.key ≤ y.1.key) (· ≤ ·) (fun x => x.1.key) queue x
      (fun _ _ => Iff.rfl) fun _ _ => Iff.rfl).symm
  · refine (perm.map _).nodup_iff.mpr (List.nodup_cons.mpr ⟨fun member => ?_,holds.arrivals⟩)
    obtain ⟨y,inside,same⟩ := List.mem_map.mp member
    exact fresh y inside same
  · rw [perm.mem_iff,List.mem_cons]
    simp only [OrdMap.get?_insert]
    split_ifs with here
    · subst here
      constructor
      · rintro ⟨⟩
        exact ⟨.inl rfl,rfl⟩
      · rintro ⟨rfl | member,same⟩
        · rfl
        · exact absurd same (fresh y member)
    · rw [holds.items]
      refine and_congr_left fun same => ⟨.inr,fun member => member.resolve_left ?_⟩
      rintro rfl
      exact here same.symm
  · simp only [OrdMap.size_insert_new absent,holds.size]
    exact perm.length_eq.symm

theorem Holds.dequeue (holds : s.Holds (x :: rest)) (floor_us : Nat) :
    s.items.get? x.1.arrival_sequence = some x ∧
    Holds { s with floor_us, heap := rest.map (fun x => x.1.key), items := s.items.erase x.1.arrival_sequence } rest := by
  have found : s.items.get? x.1.arrival_sequence = some x := (holds.items _ _).mpr ⟨List.mem_cons_self,rfl⟩
  have distinct := holds.arrivals
  rw [List.map_cons,List.nodup_cons] at distinct
  refine ⟨found,rfl,holds.sorted.of_cons,distinct.2,fun a y => ?_,?_⟩
  · simp only [OrdMap.get?_erase]
    split_ifs with here
    · subst here
      refine ⟨fun none => (nomatch none),fun ⟨member,same⟩ => absurd ?_ distinct.1⟩
      exact List.mem_map.mpr ⟨y,member,same⟩
    · rw [holds.items,List.mem_cons]
      refine and_congr_left fun same => ⟨fun member => member.resolve_left ?_,.inr⟩
      rintro rfl
      exact here same.symm
  · have smaller := OrdMap.size_erase (OrdMap.contains_iff.mpr ⟨x,found⟩)
    have size := holds.size
    rw [List.length_cons] at size
    simp only
    omega

theorem Holds.head_lt (holds : s.Holds (x :: rest)) {y : AdmissionRecord × T} (member : y ∈ rest) : x.1.key < y.1.key := by
  refine lt_of_le_of_ne ((List.pairwise_cons.mp holds.sorted).1 y member) fun same => ?_
  have distinct := holds.arrivals
  rw [List.map_cons,List.nodup_cons] at distinct
  have arrival : x.1.arrival_sequence = y.1.arrival_sequence := (Prod.ext_iff.mp (toLex.injective same)).2
  exact distinct.1 (List.mem_map.mpr ⟨y,member,arrival.symm⟩)

end Sequencer

section Logs
variable {T : Type} {s : Sequencer T} {log : List (Served T)} {queue : List (AdmissionRecord × T)} {served : Served T}
  {now_us : Nat}

theorem admitted_concat (log : List (Served T)) (served : Served T) :
    admitted (log ++ [served]) = admitted log ++ served.admitted.toList := by
  cases made : served.admitted <;> simp [admitted,made]

theorem released_concat (log : List (Served T)) (served : Served T) :
    released (log ++ [served]) = released log ++ served.released.toList := by
  cases made : served.released <;> simp [released,made]

/-- Every release was due by a clock that had been passed. -/
def InTime (log : List (Served T)) : Prop :=
  ∀ before served after x, log = before ++ served :: after → served.released = some x →
    ∃ earlier ∈ before ++ [served], x.1.release_us ≤ earlier.now_us

/-- Nothing is admitted with a key below one that was released. -/
def InOrder (log : List (Served T)) : Prop :=
  log.Pairwise (fun earlier later => ∀ x y, earlier.released = some x → later.admitted = some y → x.1.key < y.1.key)

/-- What the answers so far say of the sequencer and its queue. -/
structure Sequenced (log : List (Served T)) (s : Sequencer T) (queue : List (AdmissionRecord × T)) : Prop where
  holds : s.Holds queue
  room : s.items.size ≤ s.capacity
  next : s.next_arrival = (admitted log).length % 18446744073709551616
  numbers : (admitted log).map (fun x => x.1.arrival_sequence) = List.range (admitted log).length
  perm : (admitted log).Perm (released log ++ queue)
  order : (released log).Pairwise (fun x y => x.1.key < y.1.key)
  ahead : ∀ x ∈ released log, ∀ y ∈ queue, x.1.key < y.1.key
  floor : ∀ x ∈ released log, x.1.release_us ≤ s.floor_us
  clock : s.floor_us = 0 ∨ ∃ served ∈ log, s.floor_us ≤ served.now_us
  in_time : InTime log
  in_order : InOrder log

theorem InTime.concat (in_time : InTime log)
    (last : ∀ x, served.released = some x → ∃ earlier ∈ log ++ [served], x.1.release_us ≤ earlier.now_us) :
    InTime (log ++ [served]) := by
  intro before here after x split made
  rcases List.eq_nil_or_concat after with rfl | ⟨after,final,rfl⟩
  · obtain ⟨rfl,same⟩ := List.append_inj' split rfl
    cases same
    exact last x made
  · rw [List.concat_eq_append,← List.cons_append,← List.append_assoc] at split
    obtain ⟨rfl,_⟩ := List.append_inj' split rfl
    exact in_time before here after x rfl made

theorem InOrder.concat (in_order : InOrder log)
    (last : ∀ x ∈ released log, ∀ y, served.admitted = some y → x.1.key < y.1.key) : InOrder (log ++ [served]) := by
  refine List.pairwise_append.mpr ⟨in_order,List.pairwise_singleton _ _,fun earlier member later here x y gone came => ?_⟩
  cases List.mem_singleton.mp here
  exact last x (List.mem_filterMap.mpr ⟨earlier,member,gone⟩) y came

/-- The clock after a call is one of those passed. -/
theorem Sequenced.clock_max (sequenced : Sequenced log s queue) (at_call : served.now_us = now_us) :
    ∃ earlier ∈ log ++ [served], max s.floor_us now_us ≤ earlier.now_us := by
  rcases le_total s.floor_us now_us with below | above
  · exact ⟨served,by simp,by rw [max_eq_right below,at_call]⟩
  · rw [max_eq_left above]
    rcases sequenced.clock with zero | ⟨earlier,member,reached⟩
    · exact ⟨served,by simp,by omega⟩
    · exact ⟨earlier,by simp [member],reached⟩

theorem Sequenced.wait (sequenced : Sequenced log s queue) (none_in : served.admitted = none)
    (none_out : served.released = none) {s' : Sequencer T} (same : s' = { s with floor_us := s'.floor_us })
    (higher : s.floor_us ≤ s'.floor_us)
    (clock : s'.floor_us = 0 ∨ ∃ earlier ∈ log ++ [served], s'.floor_us ≤ earlier.now_us) :
    Sequenced (log ++ [served]) s' queue := by
  obtain ⟨holds,room,next,numbers,perm,order,ahead,floor,_,in_time,in_order⟩ := sequenced
  have ins : admitted (log ++ [served]) = admitted log := by rw [admitted_concat,none_in]; simp
  have outs : released (log ++ [served]) = released log := by rw [released_concat,none_out]; simp
  refine ⟨?_,?_,?_,?_,?_,?_,?_,?_,clock,in_time.concat fun x made => ?_,in_order.concat fun _ _ y made => ?_⟩
  · rw [same]
    exact { holds with }
  · rw [same]; exact room
  · rw [same,ins]; exact next
  · rw [ins]; exact numbers
  · rw [ins,outs]; exact perm
  · rw [outs]; exact order
  · rw [outs]; exact ahead
  · rw [outs]; exact fun x member => (floor x member).trans higher
  · rw [none_out] at made; cases made
  · rw [none_in] at made; cases made

/-- What is released so far has a smaller key than what is released no earlier and admitted later. -/
theorem AdmissionRecord.key_lt {x y : AdmissionRecord} (release : x.release_us ≤ y.release_us)
    (arrival : x.arrival_sequence < y.arrival_sequence) : x.key < y.key := by
  rcases release.eq_or_lt with same | below
  · exact Prod.Lex.toLex_lt_toLex.mpr (.inr ⟨same,arrival⟩)
  · exact Prod.Lex.toLex_lt_toLex.mpr (.inl below)

section
variable (sequenced : Sequenced log s queue)
include sequenced

theorem Sequenced.arrivals {x : AdmissionRecord × T} (member : x ∈ admitted log) :
    x.1.arrival_sequence < (admitted log).length := by
  have inside := List.mem_map_of_mem (f := fun x => x.1.arrival_sequence) member
  rw [sequenced.numbers] at inside
  exact List.mem_range.mp inside

/-- An admission, before the counter of arrivals wraps. -/
theorem Sequenced.enters (record : AdmissionRecord) (item : T) (now_us : Nat)
    (room : s.items.size < s.capacity) (fits : (admitted log).length < 18446744073709551616) :
    let record := { record with release_us := max record.release_us (max s.floor_us now_us), arrival_sequence := s.next_arrival }
    Sequenced (log ++ [.Admitted now_us record item]) { s with
      floor_us := max s.floor_us now_us
      next_arrival := (s.next_arrival + 1) % 18446744073709551616
      heap := s.heap.orderedInsert (· ≤ ·) record.key
      items := s.items.insert record.arrival_sequence (record,item) } (Sequencer.enqueue (record,item) queue) := by
  intro record
  have next : s.next_arrival = (admitted log).length := by rw [sequenced.next,Nat.mod_eq_of_lt fits]
  have fresh : ∀ y ∈ queue, y.1.arrival_sequence ≠ record.arrival_sequence := fun y member same => by
    have earlier := sequenced.arrivals (sequenced.perm.mem_iff.mpr (List.mem_append_right _ member))
    simp only [record] at same
    omega
  have above : ∀ x ∈ released log, x.1.key < record.key := fun x member => by
    have low := sequenced.floor x member
    have early := sequenced.arrivals (sequenced.perm.mem_iff.mpr (List.mem_append_left _ member))
    refine AdmissionRecord.key_lt ?_ ?_
    · exact le_max_of_le_right (le_max_of_le_left low)
    · simp only [record]; omega
  have ins : admitted (log ++ [.Admitted now_us record item]) = admitted log ++ [(record,item)] := admitted_concat _ _
  have outs : released (log ++ [.Admitted now_us record item]) = released log := by simp [released_concat,Served.released]
  have perm := Sequencer.enqueue_perm (record,item) queue
  have holds := sequenced.holds.enqueue (x := (record,item)) fresh (max s.floor_us now_us) ((s.next_arrival + 1) % 18446744073709551616)
  have size := holds.size
  simp only [perm.length_eq,List.length_cons,← sequenced.holds.size] at size
  refine ⟨holds,?_,?_,?_,?_,?_,?_,?_,.inr (sequenced.clock_max rfl),sequenced.in_time.concat fun x made => (nomatch made),
    sequenced.in_order.concat fun x member y made => ?_⟩
  · simp only at size ⊢
    omega
  · rw [ins,List.length_append,next]
    rfl
  · rw [ins,List.map_append,List.length_append,sequenced.numbers,List.length_singleton,List.range_succ]
    simp only [record,next,List.map_cons,List.map_nil]
  · rw [ins,outs]
    calc admitted log ++ [(record,item)]
      _ |>.Perm ((released log ++ queue) ++ [(record,item)]) := sequenced.perm.append_right _
      _ |>.Perm (released log ++ Sequencer.enqueue (record,item) queue) := by
        rw [List.append_assoc]
        exact ((List.perm_append_singleton _ queue).trans perm.symm).append_left _
  · rw [outs]; exact sequenced.order
  · rw [outs]
    intro x gone y member
    rcases List.mem_cons.mp (perm.mem_iff.mp member) with rfl | before
    · exact above x gone
    · exact sequenced.ahead x gone y before
  · rw [outs]
    exact fun x member => (sequenced.floor x member).trans (le_max_left _ _)
  · cases made
    exact above x member

end

theorem Sequenced.leaves {x : AdmissionRecord × T} {rest : List (AdmissionRecord × T)} (sequenced : Sequenced log s (x :: rest))
    (now_us : Nat) (due : x.1.release_us ≤ max s.floor_us now_us) :
    Sequenced (log ++ [.Released now_us x.1 x.2]) { s with
      floor_us := max s.floor_us now_us
      heap := rest.map (fun x => x.1.key)
      items := s.items.erase x.1.arrival_sequence } rest := by
  have ins : admitted (log ++ [.Released now_us x.1 x.2]) = admitted log := by simp [admitted_concat,Served.admitted]
  have outs : released (log ++ [.Released now_us x.1 x.2]) = released log ++ [x] := released_concat _ _
  obtain ⟨found,holds⟩ := sequenced.holds.dequeue (max s.floor_us now_us)
  have clock : ∃ earlier ∈ log ++ [.Released now_us x.1 x.2], max s.floor_us now_us ≤ earlier.now_us :=
    sequenced.clock_max rfl
  refine ⟨holds,?_,?_,?_,?_,?_,?_,?_,.inr clock,sequenced.in_time.concat fun y made => ?_,
    sequenced.in_order.concat fun _ _ y made => (nomatch made)⟩
  · have smaller := OrdMap.size_erase (OrdMap.contains_iff.mpr ⟨x,found⟩)
    have room := sequenced.room
    simp only
    omega
  · rw [ins]; exact sequenced.next
  · rw [ins]; exact sequenced.numbers
  · rw [ins,outs,List.append_assoc]; exact sequenced.perm
  · rw [outs]
    exact List.pairwise_append.mpr ⟨sequenced.order,List.pairwise_singleton _ _,fun y member z here => by
      rw [List.mem_singleton.mp here]
      exact sequenced.ahead y member x List.mem_cons_self⟩
  · rw [outs]
    intro y gone z member
    rcases List.mem_append.mp gone with before | here
    · exact sequenced.ahead y before z (List.mem_cons_of_mem _ member)
    · rw [List.mem_singleton.mp here]
      exact sequenced.holds.head_lt member
  · rw [outs]
    intro y gone
    rcases List.mem_append.mp gone with before | here
    · exact (sequenced.floor y before).trans (le_max_left _ _)
    · rw [List.mem_singleton.mp here]
      exact due
  · cases made
    obtain ⟨earlier,member,reached⟩ := clock
    exact ⟨earlier,member,due.trans reached⟩

theorem Sequencer.serve_entry (s : Sequencer T) (now_us : Nat) (record : AdmissionRecord) (item : T) :
    s.serve (.Admit now_us record item) =
      if s.items.size ≥ s.capacity then (.Refused now_us,s) else
        let record := { record with
          release_us := max record.release_us (max s.floor_us now_us), arrival_sequence := s.next_arrival }
        (.Admitted now_us record item,{ s with
          floor_us := max s.floor_us now_us
          next_arrival := (s.next_arrival + 1) % 18446744073709551616
          heap := s.heap.orderedInsert (· ≤ ·) record.key
          items := s.items.insert record.arrival_sequence (record,item) }) := by
  by_cases full : s.items.size ≥ s.capacity <;> simp [serve, Sequencer.admit,run_refuse,full]

theorem Sequenced.serve (sequenced : Sequenced log s queue) (call : Call T)
    (fits : (admitted (log ++ [(s.serve call).1])).length ≤ 18446744073709551616) :
    ∃ queue', Sequenced (log ++ [(s.serve call).1]) (s.serve call).2 queue' := by
  cases call with
  | Admit now_us record item =>
    rw [Sequencer.serve_entry] at fits ⊢
    split_ifs at fits ⊢ with full
    · refine ⟨queue,sequenced.wait rfl rfl rfl le_rfl ?_⟩
      exact sequenced.clock.imp_right fun ⟨earlier,member,reached⟩ => ⟨earlier,by simp [member],reached⟩
    · simp only [admitted_concat,Served.admitted,List.length_append,Option.toList_some,List.length_singleton] at fits
      exact ⟨_,sequenced.enters record item now_us (not_le.mp full) fits⟩
  | PopDue now_us =>
    have heap := sequenced.holds.heap
    cases queue with
    | nil =>
      have waits : s.serve (.PopDue now_us) = (.Waiting now_us,{ s with floor_us := max s.floor_us now_us }) := by
        rw [List.map_nil] at heap
        simp [Sequencer.serve,Sequencer.pop_due,heap]
      rw [waits]
      exact ⟨[],sequenced.wait rfl rfl rfl (le_max_left _ _) (.inr (sequenced.clock_max rfl))⟩
    | cons x rest =>
      rw [List.map_cons] at heap
      by_cases due : x.1.release_us > max s.floor_us now_us
      · have waits : s.serve (.PopDue now_us) = (.Waiting now_us,{ s with floor_us := max s.floor_us now_us }) := by
          simp only [Sequencer.serve,Sequencer.pop_due,heap,AdmissionRecord.key,ofLex_toLex,due,if_true]
        rw [waits]
        exact ⟨x :: rest,sequenced.wait rfl rfl rfl (le_max_left _ _) (.inr (sequenced.clock_max rfl))⟩
      · have goes : s.serve (.PopDue now_us) = (.Released now_us x.1 x.2,{ s with
            floor_us := max s.floor_us now_us
            heap := rest.map (fun x => x.1.key)
            items := s.items.erase x.1.arrival_sequence }) := by
          have found := (sequenced.holds.dequeue 0).1
          simp only [Sequencer.serve,Sequencer.pop_due,heap,AdmissionRecord.key,ofLex_toLex,due,if_false,found]
        rw [goes]
        exact ⟨rest,sequenced.leaves now_us (not_lt.mp due)⟩

theorem Sequenced.serve_all {start : Sequencer T} (fresh : Sequenced [] start []) (calls : List (Call T))
    (fits : (admitted (start.serve_all calls).1).length ≤ 18446744073709551616) :
    ∃ queue, Sequenced (start.serve_all calls).1 (start.serve_all calls).2 queue := by
  induction calls using List.reverseRecOn with
  | nil => exact ⟨[],fresh⟩
  | append_singleton calls call ih =>
    rw [Sequencer.serve_all_concat] at fits ⊢
    simp only at fits ⊢
    obtain ⟨queue,sequenced⟩ := ih (by
      rw [admitted_concat,List.length_append] at fits
      omega)
    exact sequenced.serve call fits

theorem Sequencer.serve_capacity (s : Sequencer T) (call : Call T) : (s.serve call).2.capacity = s.capacity := by
  cases call with
  | Admit now_us record item =>
    rw [serve_entry]
    split_ifs <;> rfl
  | PopDue now_us =>
    have kept : (s.pop_due now_us).2.capacity = s.capacity := by
      unfold pop_due
      simp only
      split
      · rfl
      · split_ifs <;> rfl
    rw [← kept,serve]
    split <;> simp [*]

theorem Sequencer.serve_all_capacity (s : Sequencer T) (calls : List (Call T)) :
    (s.serve_all calls).2.capacity = s.capacity := by
  induction calls using List.reverseRecOn with
  | nil => rfl
  | append_singleton calls call ih => rw [serve_all_concat,serve_capacity,ih]

/-- The queue is what the table of items has. -/
theorem Sequencer.Holds.values (holds : s.Holds queue) : queue.Perm s.items.values := by
  have distinct : queue.Nodup := holds.arrivals.of_map _
  refine (List.subperm_of_subset distinct fun x member => ?_).perm_of_length_le ?_
  · exact OrdMap.mem_values.mpr ⟨_,(holds.items _ x).mpr ⟨member,rfl⟩⟩
  · have size := holds.size
    rw [OrdMap.values,List.length_map]
    exact size.le

theorem sequenced_new (capacity : Nat) : Sequenced [] (Sequencer.new capacity : Sequencer T) [] where
  holds := Sequencer.holds_new capacity
  room := Nat.zero_le _
  next := rfl
  numbers := rfl
  perm := .nil
  order := .nil
  ahead := fun _ member => (nomatch member)
  floor := fun _ member => (nomatch member)
  clock := .inl rfl
  in_time := fun before _ _ _ split => by simp at split
  in_order := .nil

end Logs

/-- The sequencer releases in the order of release time and arrival, each item once and not before a clock has reached its
    release; what is not released is still in its table. What is admitted after a release comes after it, and the table stays
    within the capacity. -/
theorem sequencer_releases_in_order {T : Type} (capacity : Nat) (calls : List (Call T))
    (unwrapped : (admitted ((Sequencer.new capacity).serve_all calls).1).length ≤ 18446744073709551616) :
    let log := ((Sequencer.new capacity).serve_all calls).1
    let s : Sequencer T := ((Sequencer.new capacity).serve_all calls).2
    (released log).Pairwise (fun x y => x.1.key < y.1.key) ∧
    (admitted log).Perm (released log ++ s.items.values) ∧
    ((admitted log).map (fun x => x.1.arrival_sequence)).Nodup ∧
    InTime log ∧ InOrder log ∧
    s.len ≤ s.capacity ∧ s.capacity = max capacity 1 := by
  intro log s
  obtain ⟨queue,sequenced⟩ := (sequenced_new capacity).serve_all calls unwrapped
  refine ⟨sequenced.order,?_,?_,sequenced.in_time,sequenced.in_order,sequenced.room,?_⟩
  · exact sequenced.perm.trans (sequenced.holds.values.append_left _)
  · rw [sequenced.numbers]
    exact List.nodup_range
  · exact Sequencer.serve_all_capacity _ calls

/-- The third item finds the queue full, and the clocks of the releases lie behind those of the admissions. -/
def sample_calls : List (Call Nat) :=
  let record : AdmissionRecord := ⟨0,none,.None,.Hub,0,none,5,0⟩
  [.Admit 1 record 10,.Admit 9 record 11,.Admit 9 record 12,.PopDue 0,.PopDue 0,.Admit 2 record 13,.PopDue 3]

theorem sequencer_releases_in_order_of_a_sample :
    released ((Sequencer.new 2).serve_all sample_calls).1 ≠ [] ∧
    (released ((Sequencer.new 2).serve_all sample_calls).1).Pairwise (fun x y => x.1.key < y.1.key) :=
  ⟨by decide +kernel,(sequencer_releases_in_order 2 sample_calls (by decide +kernel)).1⟩

/-- The deadline is the release of the first item in the table; a pop gives it once a clock has reached it, not before. -/
theorem deadline_is_first_release {T : Type} (capacity : Nat) (calls : List (Call T)) (now_us : Nat)
    (unwrapped : (admitted ((Sequencer.new capacity).serve_all calls).1).length ≤ 18446744073709551616) :
    let s : Sequencer T := ((Sequencer.new capacity).serve_all calls).2
    (s.len = 0 ∧ s.next_release_us = none ∧ (s.pop_due now_us).1 = none) ∨
    ∃ x ∈ s.items.values, (∀ y ∈ s.items.values, x.1.key ≤ y.1.key) ∧ s.next_release_us = some x.1.release_us ∧
      (s.pop_due now_us).1 = if x.1.release_us ≤ max s.floor_us now_us then some x else none := by
  intro s
  obtain ⟨queue,⟨holds,_⟩⟩ := (sequenced_new capacity).serve_all calls unwrapped
  have heap : s.heap = queue.map (fun x => x.1.key) := holds.heap
  cases queue with
  | nil => exact .inl ⟨holds.size,by simp [Sequencer.next_release_us,heap],by simp [Sequencer.pop_due,heap]⟩
  | cons x rest =>
    have found : s.items.get? x.1.arrival_sequence = some x := (holds.dequeue 0).1
    refine .inr ⟨x,holds.values.mem_iff.mp List.mem_cons_self,fun y member => ?_,?_,?_⟩
    · rcases List.mem_cons.mp (holds.values.mem_iff.mpr member) with rfl | behind
      · exact le_rfl
      · exact (holds.head_lt behind).le
    · simp [Sequencer.next_release_us,heap,AdmissionRecord.key]
    · by_cases due : x.1.release_us ≤ max s.floor_us now_us <;>
        simp [Sequencer.pop_due,heap,AdmissionRecord.key,found,due,not_lt.mpr,not_le.mp]

theorem deadline_is_first_release_of_a_sample : ∃ x ∈ ((Sequencer.new 2).serve_all (sample_calls.take 2)).2.items.values,
    ((Sequencer.new 2).serve_all (sample_calls.take 2)).2.next_release_us = some x.1.release_us := by
  rcases deadline_is_first_release 2 (sample_calls.take 2) 3 (by decide +kernel) with ⟨empty,_⟩ | ⟨x,inside,_,deadline,_⟩
  · exact absurd empty (by decide +kernel)
  · exact ⟨x,inside,deadline⟩

end Bunting
