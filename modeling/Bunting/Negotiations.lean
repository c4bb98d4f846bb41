import Bunting.Lifecycle

/-!
Tenders and negotiations. A tender is answered by its participant, a negotiation
by the party it awaits, and both only while they are open. What one step can do
to the two tables is said once (`Bargain`); a settlement happens at most once,
because the statuses it leaves are final.
-/

namespace Bunting
open Stateful

/-- A trade outside the books. -/
inductive Deal
  | Tender (id : TenderId)
  | Otc (id : NegotiationId)
  deriving DecidableEq

/-- The deal an event settles. -/
def SimulationEvent.deal : SimulationEvent → Option Deal
  | .TenderSettled id .. => some (.Tender id)
  | .OtcSettled id .. => some (.Otc id)
  | _ => none

def settlements (deal : Deal) (payloads : List EventPayload) : List SimulationEvent :=
  (payloads.filterMap EventPayload.posting).filter (fun event => event.deal = some deal)

/-- The terms of an offer: who makes it, and the quantity and the price. -/
structure Offer where
  maker : ParticipantId
  quantity : Int
  price : Int
  deriving DecidableEq

/-- The offer a command makes in a deal. A tender is offered to its participant by the house. -/
def SimulationCommand.offer (deal : Deal) (actor : ParticipantId) : SimulationCommand → Option Offer
  | .OpenTender id _ _ _ quantity price _ => if deal = .Tender id then some ⟨actor,quantity,price⟩ else none
  | .OpenOtc id _ _ _ quantity price _ | .CounterOtc id quantity price =>
    if deal = .Otc id then some ⟨actor,quantity,price⟩ else none
  | _ => none

def Input.offer (deal : Deal) : Input → Option Offer
  | .Command _ => none
  | .Request request => request.payload.offer deal request.actor

def last_offer (deal : Deal) (history : List (Input × Applied)) : Option Offer :=
  (history.filterMap (fun entry => entry.1.offer deal)).getLast?

/-- What the commands of the two tables do. -/
inductive Bargain (actor : ParticipantId) (time : Nat) (sim : SimulationState) :
    SimulationCommand → List SimulationEvent → SimulationState → Prop
  | quiet {command events sim'} (silent : ∀ deal, command.offer deal actor = none)
      (apart : ∀ event ∈ events, event.deal = none) (lapses : Lapses sim sim') : Bargain actor time sim command events sim'
  | open_tender {sim' id participant instrument side quantity price expires_at} (ahead : time < expires_at)
      (fresh : sim.tenders.get? id = none)
      (tenders : sim'.tenders = sim.tenders.insert id ⟨id,participant,instrument,side,quantity,price,expires_at,.open⟩)
      (otc : sim'.otc = sim.otc) :
      Bargain actor time sim (.OpenTender id participant instrument side quantity price expires_at)
        [.TenderChanged id .open] sim'
  | decide_tender {sim' id tender decision} (found : sim.tenders.get? id = some tender)
      (owner : tender.participant_id = actor) (status : tender.status = .open) (in_time : time < tender.expires_at)
      (tenders : sim'.tenders = sim.tenders.insert id { tender with status := decision.status })
      (otc : sim'.otc = sim.otc) :
      Bargain actor time sim (.DecideTender id decision)
        (.TenderChanged id decision.status :: if decision = .Accept then
          [.TenderSettled id tender.participant_id tender.instrument_id tender.side tender.quantity tender.price] else [])
        sim'
  | open_otc {sim' id counterparty instrument side quantity price expires_at} (ahead : time < expires_at)
      (fresh : sim.otc.get? id = none)
      (apart : counterparty ≠ actor)
      (otc : sim'.otc = sim.otc.insert id
        ⟨id,actor,counterparty,instrument,side,quantity,price,expires_at,.proposed,counterparty⟩)
      (tenders : sim'.tenders = sim.tenders) :
      Bargain actor time sim (.OpenOtc id counterparty instrument side quantity price expires_at)
        [.OtcChanged id .proposed] sim'
  | counter_otc {sim' id otc quantity price} (found : sim.otc.get? id = some otc) (awaited : otc.awaiting = actor)
      (status : otc.status.negotiable = true) (in_time : time < otc.expires_at)
      (otcs : sim'.otc = sim.otc.insert id { otc with quantity, price, status := .countered, awaiting :=
        if actor = otc.proposer_id then otc.counterparty_id else otc.proposer_id })
      (tenders : sim'.tenders = sim.tenders) :
      Bargain actor time sim (.CounterOtc id quantity price) [.OtcChanged id .countered] sim'
  | decide_otc {sim' id otc decision} (found : sim.otc.get? id = some otc)
      (awaited : otc.awaiting = actor ∨ decision = .Break) (status : otc.status.negotiable = true)
      (in_time : time < otc.expires_at) (otcs : sim'.otc = sim.otc.insert id { otc with status := decision.status })
      (tenders : sim'.tenders = sim.tenders) :
      Bargain actor time sim (.DecideOtc id decision)
        (.OtcChanged id decision.status :: if decision = .Accept then
          [.OtcSettled id otc.buyer otc.seller otc.instrument_id otc.quantity otc.price] else []) sim'

theorem Does.bargain {setup : Setup} {base : SimulationState} {w w' : World} {events : List SimulationEvent}
    {context : SimulationContext} {actor : ParticipantId} {time : Nat} {command : SimulationCommand}
    (sound : SimSound setup base) (standing : Standing setup base w) (does : Does context actor time w command events w') :
    Bargain actor time w.sim command events w'.sim := by
  have quiet : SameDeals w.sim w'.sim → (∀ deal, command.offer deal actor = none) → (∀ event ∈ events, event.deal = none) →
      Bargain actor time w.sim command events w'.sim := fun same silent apart => .quiet silent apart same.lapses
  cases does with
  | managed own silent =>
    refine quiet ⟨rfl,rfl⟩ (fun deal => ?_) fun event member => ?_
    · cases command <;> first | rfl | cases own
    · have silent := List.all_eq_true.mp silent event member
      cases event <;> first | rfl | cases silent
  | tender_opened ahead fresh => exact .open_tender ahead fresh rfl rfl
  | tender_decided found owner status in_time decided =>
    cases decided <;> exact .decide_tender found owner status in_time rfl rfl
  | otc_opened ahead fresh apart => exact .open_otc ahead fresh apart rfl rfl
  | otc_countered found awaited status in_time => exact .counter_otc found awaited status in_time rfl rfl
  | @otc_decided _ _ decision _ _ found awaited status in_time decided =>
    cases decided with
    | accepted => exact .decide_otc found awaited status in_time rfl rfl
    | dropped other =>
      cases decision with
      | Accept => exact absurd rfl other
      | Reject | Break => exact .decide_otc found awaited status in_time rfl rfl
  | fined | cashflow_scheduled | job_scheduled =>
    exact quiet ⟨rfl,rfl⟩ (fun _ => rfl) (by simp [SimulationEvent.deal])
  | @advanced _ later _ catches =>
    obtain ⟨caught,_⟩ := (SimulationState.catch_up_meets sound standing _ true).ok rfl catches
    refine .quiet (fun _ => rfl) (fun event member => ?_) caught.lapses
    rcases List.mem_cons.mp member with rfl | inside
    · rfl
    by_cases posts : event.posts = true
    · have applied : event ∈ later.filter SimulationEvent.posts := List.mem_filter.mpr ⟨inside,posts⟩
      rw [caught.posting] at applied
      obtain ⟨action,_,rfl⟩ := List.mem_map.mp applied
      rfl
    · cases event <;> first | rfl | exact absurd rfl posts

section Steps
variable {sim sim' : SimulationState} {actor : ParticipantId} {time : Nat} {command : SimulationCommand}
  {events : List SimulationEvent}

theorem Bargain.congr {after : SimulationState} (bargain : Bargain actor time sim command events after)
    (same : SameDeals after sim') : Bargain actor time sim command events sim' := by
  obtain ⟨tenders_same,otc_same⟩ := same
  cases bargain with
  | quiet silent apart lapses =>
    refine .quiet silent apart ⟨?_,?_⟩
    · rw [tenders_same]
      exact lapses.tenders
    · rw [otc_same]
      exact lapses.otc
  | open_tender ahead fresh tenders otc => exact .open_tender ahead fresh (tenders_same.trans tenders) (otc_same.trans otc)
  | decide_tender found owner status in_time tenders otc =>
    exact .decide_tender found owner status in_time (tenders_same.trans tenders) (otc_same.trans otc)
  | open_otc ahead fresh apart otc tenders =>
    exact .open_otc ahead fresh apart (otc_same.trans otc) (tenders_same.trans tenders)
  | counter_otc found awaited status in_time otcs tenders =>
    exact .counter_otc found awaited status in_time (otc_same.trans otcs) (tenders_same.trans tenders)
  | decide_otc found awaited status in_time otcs tenders =>
    exact .decide_otc found awaited status in_time (otc_same.trans otcs) (tenders_same.trans tenders)

/-- What an input does to the two tables, and the settlements its events tell of. -/
def Bargains (input : Input) (payloads : List EventPayload) (sim sim' : SimulationState) : Prop :=
  (Lapses sim sim' ∧ ∀ deal, input.offer deal = none ∧ settlements deal payloads = []) ∨
  ∃ request events, input = .Request request ∧ Bargain request.actor request.logical_time sim request.payload events sim' ∧
    ∀ deal, settlements deal payloads = events.filter (fun event => event.deal = some deal)

variable {s s' : RunState} {input : Input} {applied : Applied} {caught t : Transition}

theorem Stepped.same_deals (stepped : Stepped s input applied s' t) : SameDeals t.run.simulation s'.simulation := by
  obtain ⟨_,_,_,_,_,rfl⟩ := stepped.leaves
  exact ⟨rfl,rfl⟩

theorem Frame.Caught.settles_nothing {F : Frame} (caught : F.Caught s time) (deal : Deal) :
    F.posting.filter (fun event => event.deal = some deal) = [] := by
  rw [caught.posting,List.filter_eq_nil_iff]
  intro event member
  obtain ⟨action,_,rfl⟩ := List.mem_map.mp member
  simp [SimulationEvent.deal]

theorem filter_posts_deal (events : List SimulationEvent) (deal : Deal) :
    (events.filter SimulationEvent.posts).filter (fun event => event.deal = some deal) =
      events.filter (fun event => event.deal = some deal) := by
  rw [List.filter_filter]
  refine List.filter_congr fun event _ => ?_
  cases event <;> simp [SimulationEvent.deal,SimulationEvent.posts]

theorem Input.offer_of_flow (flow : input.order_flow = true) (deal : Deal) : input.offer deal = none := by
  cases input with
  | Command => rfl
  | Request request =>
    change request.payload.direct = true at flow
    change request.payload.offer deal request.actor = none
    cases payload : request.payload <;> first | rfl | (rw [payload] at flow; cases flow)

theorem Input.bargains (sane : Sane s) (ran : input.step.run s = .ok applied s') :
    ∃ mid, Lapses s.simulation mid ∧ Bargains input applied.payloads mid s'.simulation := by
  obtain ⟨F,caught,t,halves⟩ := Input.halves sane ran
  have ready := halves.ready
  have same := halves.stepped.same_deals
  refine ⟨F.simulation,ready.caught.lapses,?_⟩
  rw [Applied.payloads,halves.payloads]
  cases halves.goes with
  | kept flow kept =>
    obtain ⟨_,_,inv⟩ := kept
    rw [inv.simulation] at same
    refine .inl ⟨same.lapses,fun deal => ⟨Input.offer_of_flow flow deal,?_⟩⟩
    rw [settlements,inv.emitted.posting]
    exact ready.caught.settles_nothing deal
  | @ran request events _ _ _ runs _ inv _ =>
    have standing := ready.standing sane
    have bargain := (SimulationState.apply_does runs).bargain standing.base ⟨?_,?_,standing.below⟩
    · rw [inv.simulation] at same
      refine .inr ⟨request,events,rfl,?_,fun deal => ?_⟩
      · rw [← ready.inv.simulation]
        exact bargain.congr same
      · rw [settlements,inv.emitted.posting]
        simp only [Frame.after,List.filter_append,ready.caught.settles_nothing deal,List.nil_append]
        exact filter_posts_deal events deal
    · rw [← ready.inv.setup]
      rfl
    · rw [ready.inv.simulation]
      exact standing.sound

end Steps

/-! ### Statuses that are final -/

variable {tender : TenderState} {id : NegotiationId} {otc : OtcState}

section Final
variable {sim sim' mid : SimulationState} {input : Input} {payloads : List EventPayload}

section
variable (lapses : Lapses sim sim')
include lapses

theorem Lapses.tender_final {id : TenderId} (found : sim.tenders.get? id = some tender) (final : tender.status ≠ .open) :
    sim'.tenders.get? id = some tender := by
  rcases lapses.tenders id with same | ⟨other,there,status,_⟩
  · exact same.trans found
  · cases found.symm.trans there
    exact absurd status final

theorem Lapses.otc_final (found : sim.otc.get? id = some otc) (final : otc.status.negotiable = false) :
    sim'.otc.get? id = some otc := by
  rcases lapses.otc id with same | ⟨other,there,status,_⟩
  · exact same.trans found
  · cases found.symm.trans there
    rw [status] at final
    cases final

/-- What is open now was open before, with the same terms. -/
theorem Lapses.tender_open {id : TenderId} (found : sim'.tenders.get? id = some tender) (status : tender.status = .open) :
    sim.tenders.get? id = some tender := by
  rcases lapses.tenders id with same | ⟨other,_,_,there⟩
  · exact same.symm.trans found
  · cases found.symm.trans there
    cases status

theorem Lapses.otc_open (found : sim'.otc.get? id = some otc) (status : otc.status.negotiable = true) :
    sim.otc.get? id = some otc := by
  rcases lapses.otc id with same | ⟨other,_,_,there⟩
  · exact same.symm.trans found
  · cases found.symm.trans there
    cases status

end

theorem Bargains.tender_final {id : TenderId} (bargains : Bargains input payloads sim sim')
    (found : sim.tenders.get? id = some tender) (final : tender.status ≠ .open) : sim'.tenders.get? id = some tender := by
  rcases bargains with ⟨lapses,_⟩ | ⟨request,events,_,bargain,_⟩
  · exact lapses.tender_final found final
  · generalize request.payload = command at bargain
    cases bargain with
    | quiet _ _ lapses => exact lapses.tender_final found final
    | open_tender _ fresh tenders _ =>
      rw [tenders]
      refine (OrdMap.get?_insert_of_ne ?_).trans found
      rintro rfl
      cases found.symm.trans fresh
    | decide_tender there _ status _ tenders _ =>
      rw [tenders]
      refine (OrdMap.get?_insert_of_ne ?_).trans found
      rintro rfl
      cases found.symm.trans there
      exact final status
    | open_otc _ _ _ _ tenders | counter_otc _ _ _ _ _ tenders | decide_otc _ _ _ _ _ tenders => rw [tenders]; exact found

theorem Bargains.otc_final (bargains : Bargains input payloads sim sim')
    (found : sim.otc.get? id = some otc) (final : otc.status.negotiable = false) : sim'.otc.get? id = some otc := by
  have apart {other : OtcState} (there : sim.otc.get? id = some other) (status : other.status.negotiable = true) : False := by
    cases found.symm.trans there
    rw [status] at final
    cases final
  rcases bargains with ⟨lapses,_⟩ | ⟨request,events,_,bargain,_⟩
  · exact lapses.otc_final found final
  · generalize request.payload = command at bargain
    cases bargain with
    | quiet _ _ lapses => exact lapses.otc_final found final
    | open_otc _ fresh _ otcs _ =>
      rw [otcs]
      refine (OrdMap.get?_insert_of_ne ?_).trans found
      rintro rfl
      cases found.symm.trans fresh
    | counter_otc there _ status _ otcs _ | decide_otc there _ status _ otcs _ =>
      rw [otcs]
      exact (OrdMap.get?_insert_of_ne fun same => apart (same ▸ there) status).trans found
    | open_tender _ _ _ otcs | decide_tender _ _ _ _ _ otcs => rw [otcs]; exact found

end Final

/-! ### Runs -/

/-- What a history tells of a deal: the last offer, and whether it was settled. -/
structure Logged (deal : Deal) (history : List (Input × Applied)) (offer : Option Offer) (settled : Bool) : Prop where
  offered : last_offer deal history = offer
  settled : (settlements deal (payloads_of history)).length = if settled then 1 else 0

/-- The last offer is of one of the two parties, and the other one is awaited. -/
structure OtcState.Awaits (otc : OtcState) (maker : ParticipantId) : Prop where
  parties : (maker = otc.proposer_id ∧ otc.awaiting = otc.counterparty_id) ∨
    (maker = otc.counterparty_id ∧ otc.awaiting = otc.proposer_id)
  apart : otc.counterparty_id ≠ otc.proposer_id

/-- The party awaited makes the next offer. -/
theorem OtcState.Awaits.counter {maker actor : ParticipantId} {quantity price : Int} {status : OtcStatus}
    (awaits : otc.Awaits maker) (awaited : otc.awaiting = actor) :
    OtcState.Awaits { otc with quantity, price, status, awaiting :=
      if actor = otc.proposer_id then otc.counterparty_id else otc.proposer_id } actor := by
  refine ⟨?_,awaits.apart⟩
  subst awaited
  rcases awaits.parties with ⟨_,counterparty⟩ | ⟨_,proposer⟩
  · exact .inr ⟨counterparty,if_neg (counterparty ▸ awaits.apart)⟩
  · exact .inl ⟨proposer,if_pos proposer⟩

/-- The history accounts for a tender, or for there being none. -/
def TenderAccount (history : List (Input × Applied)) (id : TenderId) : Option TenderState → Prop
  | none => Logged (.Tender id) history none false
  | some tender => ∃ maker, Logged (.Tender id) history (some ⟨maker,tender.quantity,tender.price⟩) (tender.status = .accepted)

def OtcAccount (history : List (Input × Applied)) (id : NegotiationId) : Option OtcState → Prop
  | none => Logged (.Otc id) history none false
  | some otc => ∃ maker, otc.Awaits maker ∧
    Logged (.Otc id) history (some ⟨maker,otc.quantity,otc.price⟩) (otc.status = .accepted)

/-- The history accounts for the two tables of a state. -/
structure Accounted (history : List (Input × Applied)) (sim : SimulationState) : Prop where
  tenders : ∀ id, TenderAccount history id (sim.tenders.get? id)
  otc : ∀ id, OtcAccount history id (sim.otc.get? id)

section Logs
variable {history : List (Input × Applied)} {sim sim' : SimulationState} {input : Input} {applied : Applied} {deal : Deal}
  {offer : Option Offer} {settled : Bool}

theorem payloads_of_append (history : List (Input × Applied)) (entry : Input × Applied) :
    payloads_of (history ++ [entry]) = payloads_of history ++ entry.2.payloads := by
  simp [payloads_of]

theorem settlements_append (deal : Deal) (payloads more : List EventPayload) :
    settlements deal (payloads ++ more) = settlements deal payloads ++ settlements deal more := by
  simp [settlements]

theorem last_offer_append (deal : Deal) (history : List (Input × Applied)) (entry : Input × Applied) :
    last_offer deal (history ++ [entry]) = (entry.1.offer deal).or (last_offer deal history) := by
  unfold last_offer
  rw [List.filterMap_append]
  cases made : entry.1.offer deal <;> simp [made]

theorem Logged.pass (logged : Logged deal history offer settled)
    (idle : input.offer deal = none ∧ settlements deal applied.payloads = []) :
    Logged deal (history ++ [(input,applied)]) offer settled := by
  refine ⟨?_,?_⟩
  · rw [last_offer_append,idle.1]
    exact logged.offered
  · rw [payloads_of_append,settlements_append,idle.2,List.append_nil]
    exact logged.settled

theorem Logged.make {new : Offer} (logged : Logged deal history offer settled) (made : input.offer deal = some new)
    (idle : settlements deal applied.payloads = []) : Logged deal (history ++ [(input,applied)]) (some new) settled := by
  refine ⟨?_,?_⟩
  · rw [last_offer_append,made]
    rfl
  · rw [payloads_of_append,settlements_append,idle,List.append_nil]
    exact logged.settled

theorem Logged.settle {event : SimulationEvent} (logged : Logged deal history offer false) (silent : input.offer deal = none)
    (one : settlements deal applied.payloads = [event]) : Logged deal (history ++ [(input,applied)]) offer true := by
  refine ⟨?_,?_⟩
  · rw [last_offer_append,silent]
    exact logged.offered
  · rw [payloads_of_append,settlements_append,one,List.length_append,logged.settled]
    rfl

theorem TenderAccount.pass {id : TenderId} {entry : Option TenderState} (account : TenderAccount history id entry)
    (idle : input.offer (.Tender id) = none ∧ settlements (.Tender id) applied.payloads = []) :
    TenderAccount (history ++ [(input,applied)]) id entry := by
  cases entry with
  | none => exact Logged.pass account idle
  | some tender =>
    obtain ⟨maker,logged⟩ := account
    exact ⟨maker,logged.pass idle⟩

theorem OtcAccount.pass {entry : Option OtcState} (account : OtcAccount history id entry)
    (idle : input.offer (.Otc id) = none ∧ settlements (.Otc id) applied.payloads = []) :
    OtcAccount (history ++ [(input,applied)]) id entry := by
  cases entry with
  | none => exact Logged.pass account idle
  | some otc =>
    obtain ⟨maker,awaits,logged⟩ := account
    exact ⟨maker,awaits,logged.pass idle⟩

variable (accounted : Accounted history sim)
include accounted

theorem Accounted.pass (idle : ∀ deal, input.offer deal = none ∧ settlements deal applied.payloads = []) :
    Accounted (history ++ [(input,applied)]) sim :=
  ⟨fun id => (accounted.tenders id).pass (idle _),fun id => (accounted.otc id).pass (idle _)⟩

theorem Accounted.put_tender {id : TenderId} (tenders : sim'.tenders = sim.tenders.insert id tender)
    (otcs : sim'.otc = sim.otc) (here : TenderAccount (history ++ [(input,applied)]) id (some tender))
    (idle : ∀ deal, deal ≠ .Tender id → input.offer deal = none ∧ settlements deal applied.payloads = []) :
    Accounted (history ++ [(input,applied)]) sim' := by
  refine ⟨fun other => ?_,fun other => ?_⟩
  · rw [tenders,OrdMap.get?_insert]
    split_ifs with same
    · exact same ▸ here
    · exact (accounted.tenders other).pass (idle _ (by simpa using same))
  · rw [otcs]
    exact (accounted.otc other).pass (idle _ (by simp))

theorem Accounted.put_otc (otcs : sim'.otc = sim.otc.insert id otc) (tenders : sim'.tenders = sim.tenders)
    (here : OtcAccount (history ++ [(input,applied)]) id (some otc))
    (idle : ∀ deal, deal ≠ .Otc id → input.offer deal = none ∧ settlements deal applied.payloads = []) :
    Accounted (history ++ [(input,applied)]) sim' := by
  refine ⟨fun other => ?_,fun other => ?_⟩
  · rw [tenders]
    exact (accounted.tenders other).pass (idle _ (by simp))
  · rw [otcs,OrdMap.get?_insert]
    split_ifs with same
    · exact same ▸ here
    · exact (accounted.otc other).pass (idle _ (by simpa using same))

theorem Accounted.lapse (lapses : Lapses sim sim') : Accounted history sim' := by
  refine ⟨fun id => ?_,fun id => ?_⟩
  · rcases lapses.tenders id with same | ⟨tender,there,status,later⟩
    · rw [same]
      exact accounted.tenders id
    · have account := accounted.tenders id
      rw [there] at account
      rw [later]
      simpa [TenderAccount,status] using account
  · rcases lapses.otc id with same | ⟨otc,there,status,later⟩
    · rw [same]
      exact accounted.otc id
    · have account := accounted.otc id
      rw [there] at account
      obtain ⟨maker,awaits,logged⟩ := account
      have fresh : otc.status ≠ .accepted := fun same => by rw [same] at status; cases status
      rw [later]
      exact ⟨maker,⟨awaits.parties,awaits.apart⟩,by simpa [fresh] using logged⟩

theorem Accounted.bargains (bargains : Bargains input applied.payloads sim sim') :
    Accounted (history ++ [(input,applied)]) sim' := by
  rcases bargains with ⟨lapses,idle⟩ | ⟨request,events,rfl,bargain,settles⟩
  · exact (accounted.pass idle).lapse lapses
  have offers : ∀ deal, (Input.Request request).offer deal = request.payload.offer deal request.actor := fun _ => rfl
  generalize request.payload = command at bargain offers
  cases bargain with
  | quiet silent apart lapses =>
    refine (accounted.pass fun deal => ⟨(offers deal).trans (silent deal),?_⟩).lapse lapses
    rw [settles,List.filter_eq_nil_iff]
    intro event member
    simp [apart event member]
  | @open_tender _ id _ _ _ quantity price _ _ fresh tenders otcs =>
    have idle : ∀ deal, settlements deal applied.payloads = [] := fun deal => by simp [settles,SimulationEvent.deal]
    refine accounted.put_tender tenders otcs ?_ fun deal other => ⟨by simp [offers,SimulationCommand.offer,other],idle deal⟩
    have account := accounted.tenders id
    rw [fresh] at account
    exact ⟨request.actor,Logged.make account (by simp [offers,SimulationCommand.offer]) (idle _)⟩
  | @decide_tender _ id tender decision found owner status _ tenders otcs =>
    have silent : ∀ deal, (Input.Request request).offer deal = none := fun deal => offers deal
    refine accounted.put_tender tenders otcs ?_ fun deal other => ⟨silent deal,?_⟩
    · have account := accounted.tenders id
      rw [found] at account
      obtain ⟨maker,logged⟩ := account
      refine ⟨maker,?_⟩
      cases decision with
      | Accept => exact Logged.settle (by simpa [status] using logged) (silent _) (by simp [settles,SimulationEvent.deal]; rfl)
      | Decline =>
        exact Logged.pass (by simpa [status,TenderDecision.status] using logged) ⟨silent _,by simp [settles,SimulationEvent.deal]⟩
    · cases decision <;> simp [settles,SimulationEvent.deal,Ne.symm other]
  | @open_otc _ id _ _ _ quantity price _ _ fresh apart otcs tenders =>
    have idle : ∀ deal, settlements deal applied.payloads = [] := fun deal => by simp [settles,SimulationEvent.deal]
    refine accounted.put_otc otcs tenders ?_ fun deal other => ⟨by simp [offers,SimulationCommand.offer,other],idle deal⟩
    have account := accounted.otc id
    rw [fresh] at account
    exact ⟨request.actor,⟨.inl ⟨rfl,rfl⟩,apart⟩,Logged.make account (by simp [offers,SimulationCommand.offer]) (idle _)⟩
  | @counter_otc _ id otc quantity price found awaited status _ otcs tenders =>
    have idle : ∀ deal, settlements deal applied.payloads = [] := fun deal => by simp [settles,SimulationEvent.deal]
    refine accounted.put_otc otcs tenders ?_ fun deal other => ⟨by simp [offers,SimulationCommand.offer,other],idle deal⟩
    have account := accounted.otc id
    rw [found] at account
    obtain ⟨maker,awaits,logged⟩ := account
    have fresh : otc.status ≠ .accepted := fun same => by rw [same] at status; cases status
    exact ⟨request.actor,awaits.counter awaited,Logged.make (by simpa [fresh] using logged)
      (by simp [offers,SimulationCommand.offer]) (idle _)⟩
  | @decide_otc _ id otc decision found _ status _ otcs tenders =>
    have silent : ∀ deal, (Input.Request request).offer deal = none := fun deal => offers deal
    refine accounted.put_otc otcs tenders ?_ fun deal other => ⟨silent deal,?_⟩
    · have account := accounted.otc id
      rw [found] at account
      obtain ⟨maker,awaits,logged⟩ := account
      have fresh : otc.status ≠ .accepted := fun same => by rw [same] at status; cases status
      simp only [fresh,decide_false] at logged
      refine ⟨maker,⟨awaits.parties,awaits.apart⟩,?_⟩
      cases decision with
      | Accept => exact Logged.settle logged (silent _) (by simp [settles,SimulationEvent.deal]; rfl)
      | Reject | Break => exact Logged.pass logged ⟨silent _,by simp [settles,SimulationEvent.deal]⟩
    · cases decision <;> simp [settles,SimulationEvent.deal,Ne.symm other]

end Logs

/-- An accepting decision, before which the history had an open deal at the terms of its last offer. -/
inductive Settles (history : List (Input × Applied)) (sim : SimulationState) : Input → SimulationEvent → Prop
  | tender {request id tender maker} (decides : request.payload = .DecideTender id .Accept)
      (found : sim.tenders.get? id = some tender) (status : tender.status = .open)
      (in_time : request.logical_time < tender.expires_at) (by_owner : request.actor = tender.participant_id)
      (offered : last_offer (.Tender id) history = some ⟨maker,tender.quantity,tender.price⟩) :
      Settles history sim (.Request request)
        (.TenderSettled id tender.participant_id tender.instrument_id tender.side tender.quantity tender.price)
  | otc {request id otc maker} (decides : request.payload = .DecideOtc id .Accept)
      (found : sim.otc.get? id = some otc) (status : otc.status.negotiable = true)
      (in_time : request.logical_time < otc.expires_at) (by_awaited : request.actor = otc.awaiting)
      (offered : last_offer (.Otc id) history = some ⟨maker,otc.quantity,otc.price⟩) :
      Settles history sim (.Request request)
        (.OtcSettled id otc.buyer otc.seller otc.instrument_id otc.quantity otc.price)

section Runs
variable {scenario : ScenarioDefinition} {start s s' : RunState} {history : List (Input × Applied)} {input : Input}
  {applied : Applied}

theorem Opened.accounted (opened : Opened scenario start) : Accounted [] start.simulation := by
  have starts := opened.simulation
  simp only [SimulationState.from_scenario,returned] at starts
  obtain ⟨_,_,same⟩ := starts
  rw [← same]
  exact ⟨fun _ => ⟨rfl,rfl⟩,fun _ => ⟨rfl,rfl⟩⟩

theorem Runs.accounted (runs : Runs start history s) (opened : Opened scenario start) : Accounted history s.simulation := by
  induction runs with
  | nil => exact opened.accounted
  | step before ran ih =>
    obtain ⟨mid,lapses,bargains⟩ := Input.bargains (before.sane opened.sane) ran
    exact (ih.lapse lapses).bargains bargains

/-- A tender that is not open is never touched again. -/
theorem Runs.tender_final {id : TenderId} (runs : Runs s history s') (sane : Sane s)
    (found : s.simulation.tenders.get? id = some tender) (final : tender.status ≠ .open) :
    s'.simulation.tenders.get? id = some tender := by
  induction runs with
  | nil => exact found
  | step before ran ih =>
    obtain ⟨mid,lapses,bargains⟩ := Input.bargains (before.sane sane) ran
    exact bargains.tender_final (lapses.tender_final ih final) final

theorem Runs.otc_final (runs : Runs s history s') (sane : Sane s)
    (found : s.simulation.otc.get? id = some otc) (final : otc.status.negotiable = false) :
    s'.simulation.otc.get? id = some otc := by
  induction runs with
  | nil => exact found
  | step before ran ih =>
    obtain ⟨mid,lapses,bargains⟩ := Input.bargains (before.sane sane) ran
    exact bargains.otc_final (lapses.otc_final ih final) final

/-- The settlement of a step is an accepting decision. -/
theorem Accounted.settles {deal : Deal} {event : SimulationEvent} (accounted : Accounted history s.simulation)
    (sane : Sane s) (ran : input.step.run s = .ok applied s') (told : event ∈ settlements deal applied.payloads) :
    Settles history s.simulation input event := by
  obtain ⟨mid,lapses,bargains⟩ := Input.bargains sane ran
  rcases bargains with ⟨_,idle⟩ | ⟨request,events,rfl,bargain,settled⟩
  · rw [(idle deal).2] at told
    cases told
  rw [settled] at told
  obtain ⟨member,settles⟩ := List.mem_filter.mp told
  have settles := of_decide_eq_true settles
  generalize decides : request.payload = command at bargain
  cases bargain with
  | quiet _ apart _ => cases (apart event member).symm.trans settles
  | open_tender | open_otc | counter_otc =>
    cases List.mem_singleton.mp member
    cases settles
  | @decide_tender _ id tender decision found owner status in_time _ _ =>
    have found := lapses.tender_open found status
    have account := accounted.tenders id
    rw [found] at account
    obtain ⟨maker,logged⟩ := account
    rcases List.mem_cons.mp member with rfl | inside
    · cases settles
    · split_ifs at inside with accepts
      · subst accepts
        rw [List.mem_singleton.mp inside]
        exact .tender decides found status in_time owner.symm logged.offered
      · cases inside
  | @decide_otc _ id otc decision found awaited status in_time _ _ =>
    have found := lapses.otc_open found status
    have account := accounted.otc id
    rw [found] at account
    obtain ⟨maker,_,logged⟩ := account
    rcases List.mem_cons.mp member with rfl | inside
    · cases settles
    · split_ifs at inside with accepts
      · subst accepts
        rw [List.mem_singleton.mp inside]
        exact .otc decides found status in_time (awaited.resolve_right (by simp)).symm logged.offered
      · cases inside

theorem Accounted.settles_once (accounted : Accounted history s.simulation) (deal : Deal) :
    (settlements deal (payloads_of history)).length ≤ 1 := by
  have at_most {offer : Option Offer} {settled : Bool} (logged : Logged deal history offer settled) :
      (settlements deal (payloads_of history)).length ≤ 1 := by
    rw [logged.settled]
    split_ifs <;> omega
  cases deal with
  | Tender id =>
    have account := accounted.tenders id
    cases found : s.simulation.tenders.get? id with
    | none => rw [found] at account; exact at_most account
    | some tender =>
      rw [found] at account
      obtain ⟨maker,logged⟩ := account
      exact at_most logged
  | Otc id =>
    have account := accounted.otc id
    cases found : s.simulation.otc.get? id with
    | none => rw [found] at account; exact at_most account
    | some otc =>
      rw [found] at account
      obtain ⟨maker,_,logged⟩ := account
      exact at_most logged

/-- Tenders and negotiations settle at most once, by an accepting decision in time of the party that is to answer, at the
    terms of the last offer. Their other statuses are final, and an open negotiation awaits the party that did not make the
    last offer. -/
theorem deals_settle_once (starts : Starts scenario start) (runs : Runs start history s) :
    (∀ deal, (settlements deal (payloads_of history)).length ≤ 1) ∧
    (∀ before input applied after deal event, history = before ++ (input,applied) :: after →
      event ∈ settlements deal applied.payloads →
      ∃ middle, Runs start before middle ∧ Settles before middle.simulation input event) ∧
    (∀ id tender, s.simulation.tenders.get? id = some tender → tender.status ≠ .open → ∀ after s', Runs s after s' →
      s'.simulation.tenders.get? id = some tender) ∧
    (∀ id otc, s.simulation.otc.get? id = some otc → otc.status.negotiable = false → ∀ after s', Runs s after s' →
      s'.simulation.otc.get? id = some otc) ∧
    ∀ id otc, s.simulation.otc.get? id = some otc → otc.status.negotiable = true →
      ∃ maker, last_offer (.Otc id) history = some ⟨maker,otc.quantity,otc.price⟩ ∧ otc.Awaits maker := by
  have accounted := runs.accounted starts.opened
  have sane := runs.sane starts.opened.sane
  refine ⟨accounted.settles_once,?_,fun _ _ found final _ _ later => later.tender_final sane found final,
    fun _ _ found final _ _ later => later.otc_final sane found final,fun id otc found _ => ?_⟩
  · rintro before input applied after deal event rfl told
    obtain ⟨middle,_,earlier,ran,_⟩ := runs.split
    exact ⟨middle,earlier,(earlier.accounted starts.opened).settles (earlier.sane starts.opened.sane) ran told⟩
  · have account := accounted.otc id
    rw [found] at account
    obtain ⟨maker,awaits,logged⟩ := account
    exact ⟨maker,logged.offered,awaits⟩

/-- A tender taken, a negotiation settled at the price of its counter offer, and one that is still open. -/
theorem deals_settle_once_in_a_round : ∃ start history s, Starts sample start ∧ Runs start history s ∧
    settlements (.Tender 1) (payloads_of history) = [.TenderSettled 1 1 1 .Buy 5 10] ∧
    settlements (.Otc 1) (payloads_of history) = [.OtcSettled 1 1 2 1 3 11] ∧
    (∀ deal, (settlements deal (payloads_of history)).length ≤ 1) ∧
    ∃ otc maker, s.simulation.otc.get? 2 = some otc ∧ last_offer (.Otc 2) history = some ⟨maker,otc.quantity,otc.price⟩ ∧
      otc.Awaits maker := by
  obtain ⟨start,history,s,starts,runs,tender,negotiation,otc,found,status⟩ := @play_reaches sample sample_codec
    [ask 0 0 9 (.OpenTender 1 1 1 .Buy 5 10 100),ask 1 1 1 (.DecideTender 1 .Accept),
      ask 2 2 1 (.OpenOtc 1 2 1 .Buy 3 10 100),ask 3 3 2 (.CounterOtc 1 3 11),ask 4 4 1 (.DecideOtc 1 .Accept),
      ask 5 5 2 (.OpenOtc 2 1 1 .Sell 1 10 100)]
    (fun history s => settlements (.Tender 1) (payloads_of history) = [.TenderSettled 1 1 1 .Buy 5 10] ∧
      settlements (.Otc 1) (payloads_of history) = [.OtcSettled 1 1 2 1 3 11] ∧
      ∃ otc, s.simulation.otc.get? 2 = some otc ∧ otc.status.negotiable = true) (by decide +kernel)
  obtain ⟨once,_,_,_,awaits⟩ := deals_settle_once starts runs
  obtain ⟨maker,offered,parties⟩ := awaits 2 otc found status
  exact ⟨start,history,s,starts,runs,tender,negotiation,once,otc,maker,found,offered,parties⟩

end Runs

end Bunting
