import Bunting.FixWire
import Bunting.MarketEvents
import Bunting.PublicUpdates

/-!
What a new session puts into its outbound hold: the private stream that a client
of the native protocol missed, or the reports that a FIX session owes and
catches up with. A session that overflows its hold is told to connect again,
which helps exactly if what it missed fits.
-/

namespace Bunting
open Stateful Simfix

/-- The bound on held messages, as the configuration accepts it. -/
structure HoldLimit where
  max_outbound_hold : Nat
  positive : max_outbound_hold ≠ 0
  word : max_outbound_hold ≤ usize_max

/-- Messages that wait until they have crossed their path, by the time they leave and then in the order they were held. -/
structure OutboundHold (M : Type) where
  capacity : Nat
  next : Nat
  queue : OrdMap (Nat ×ₗ Nat) M

variable {M : Type}

def OutboundHold.new (capacity : Nat) : OutboundHold M := ⟨capacity,0,∅⟩

def OutboundHold.hold (message : M) (send_at_us : Nat) : EStateM String (OutboundHold M) PUnit := do
  let s ← get
  refuse (s.queue.size ≥ s.capacity) s!"max_outbound_hold limit {s.capacity}: reconnect to recover"
  set { s with
    queue := s.queue.insert (toLex (send_at_us,s.next)) message
    next := (s.next + 1) % 18446744073709551616 }

/-- Holds messages, each until its own time. -/
def OutboundHold.hold_all (messages : List (M × Nat)) : EStateM String (OutboundHold M) PUnit :=
  forM messages fun e => hold e.1 e.2

open OutboundHold

/-! ### What a new session holds -/

structure CommittedBatch where
  durable_us : Nat
  events : List EventEnvelope

def CommittedBatch.last (batch : CommittedBatch) : Option Nat := batch.events.getLast?.map EventEnvelope.sequence

inductive Resume
  | Replay (batches : List CommittedBatch)
  | Gap

/-- Every event after the cursor is retained, and the cursor is a position that was published. -/
def covered (retained : List CommittedBatch) (current : Option Nat) (after : Nat) : Bool :=
  match retained.head?.bind fun batch => batch.events.head?.map EventEnvelope.sequence with
  | some oldest => oldest ≤ u64_saturating_add after 1 ∧ (retained.getLast?.bind CommittedBatch.last).any (after ≤ ·)
  | none => current = some after

/-- What a session of the native protocol makes of a batch, and how long the path of the batch takes. -/
structure BnpHost (M : Type) where
  session_messages : CommittedBatch → List M
  sequence : M → Option Nat
  replay_complete : Nat → M
  delay_from : CommittedBatch → Nat

namespace BnpHost

def missed (host : BnpHost M) (after : Nat) (batch : CommittedBatch) : List M :=
  (host.session_messages batch).filter fun message => (host.sequence message).any (after < ·)

/-- Holds what the client missed, no message before one of an earlier batch. Returns where the replay ends. -/
def replay_batches (host : BnpHost M) (after : Nat) :
    Nat × Nat → List CommittedBatch → EStateM String (OutboundHold M) (Nat × Nat)
  | done,[] => pure done
  | (private_floor,through),batch :: batches => do
    let send_at := max (u64_saturating_add batch.durable_us (host.delay_from batch)) private_floor
    hold_all ((host.missed after batch).map (·,send_at))
    host.replay_batches after (send_at,batch.last.getD through) batches

def replay (host : BnpHost M) (after : Nat) (batches : List CommittedBatch) : EStateM String (OutboundHold M) PUnit := do
  let (private_floor,through) ← host.replay_batches after (0,after) batches
  hold (host.replay_complete through) private_floor

end BnpHost

/-- One round of a FIX session: the rejections, replies and feed messages that it holds, whether the inbound gap is closed
    by then, and the time at which it writes. -/
structure Round (M : Type) where
  held : List (M × Nat)
  inbound_complete : Bool
  now_us : Nat

section Replay
variable (host : BnpHost M) (after : Nat) (batches : List CommittedBatch)

end Replay

/-- The hold of a session in which messages wait for these times, after it has held so many. -/
structure Waits (limit : HoldLimit) (times : List Nat) (count : Nat) (s : OutboundHold M) : Prop where
  capacity : s.capacity = limit.max_outbound_hold
  room : times.length ≤ limit.max_outbound_hold
  queue : (s.queue.keys.map fun key => (ofLex key).1).Perm times
  next : s.next = count
  below : ∀ key message, s.queue.get? key = some message → (ofLex key).2 < count

section Waits
variable {limit : HoldLimit} {times : List Nat} {count total more rest : Nat} {s : OutboundHold M}

theorem Waits.size (waits : Waits limit times count s) : s.queue.size = times.length := by
  rw [← waits.queue.length_eq,List.length_map]
  exact (List.length_map _).symm

/-- What still waits fits in every round, and in the last so do the reports. -/
def Fits (capacity reports : Nat) : List Nat → List (Round M) → Prop
  | _,[] => True
  | waiting,round :: rounds =>
    let waiting := waiting ++ round.held.map Prod.snd
    if round.inbound_complete then waiting.length + reports ≤ capacity
    else waiting.length ≤ capacity ∧ Fits capacity reports (waiting.filter (round.now_us < ·)) rounds

end Waits

end Bunting
