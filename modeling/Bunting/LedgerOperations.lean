import Bunting.Settlement

/-!
What an operation of the ledger can touch. An operation that fails leaves the
ledger as it was; one that succeeds writes the accounts it names and nothing else.
-/

namespace Bunting
open Stateful
namespace Ledger

/-- The operations that write accounts or marks. -/
inductive Operation
  | open_order (participant : ParticipantId) (instrument : InstrumentId) (side : Side) (quantity : Int)
      (reservation : Reservation)
  | close_order (participant : ParticipantId) (instrument : InstrumentId) (side : Side) (quantity : Int)
      (reservation : Reservation)
  | settle (fill : Fill)
  | convert (participant : ParticipantId) (input output : Option (InstrumentId × Int))
  | post_cash (participant : ParticipantId) (currency : CurrencyId) (amount : Int)
  | seed_position (participant : ParticipantId) (instrument : InstrumentId) (quantity cost_basis : Int)
  | set_mark (instrument : InstrumentId) (mark : Int)
  deriving DecidableEq

def Operation.program : Operation → EStateM LedgerError Ledger Unit
  | .open_order participant instrument side quantity reservation =>
    Ledger.open_order participant instrument side quantity reservation
  | .close_order participant instrument side quantity reservation =>
    Ledger.close_order participant instrument side quantity reservation
  | .settle fill => Ledger.settle fill
  | .convert participant input output => Ledger.convert participant input output
  | .post_cash participant currency amount => Ledger.post_cash participant currency amount
  | .seed_position participant instrument quantity cost_basis =>
    Ledger.seed_position participant instrument quantity cost_basis
  | .set_mark instrument mark => Ledger.set_mark instrument mark

/-- The accounts and marks that an operation names. -/
structure Scope where
  cash : List (ParticipantId × CurrencyId) := []
  positions : List (ParticipantId × InstrumentId) := []
  marks : List InstrumentId := []

def currency_of (ledger : Ledger) (instrument : InstrumentId) : Option CurrencyId :=
  (ledger.terms.get? instrument).map InstrumentTerms.currency

/-- The accounts of some participants in an instrument and its currency. -/
def accounts (ledger : Ledger) (instrument : InstrumentId) (participants : List ParticipantId) : Scope :=
  { cash := participants.flatMap fun participant =>
      ((ledger.currency_of instrument).map fun currency => (participant,currency)).toList
    positions := participants.map fun participant => (participant,instrument) }

def Operation.scope (ledger : Ledger) : Operation → Scope
  | .open_order participant instrument _ _ _ => ledger.accounts instrument [participant]
  | .close_order participant instrument _ _ _ => ledger.accounts instrument [participant]
  | .settle fill =>
    { ledger.accounts fill.instrument ((fill.buyer.toList ++ fill.seller.toList).map FillParty.participant) with
      marks := if fill.set_mark then [fill.instrument] else [] }
  | .convert participant input output =>
    { positions := (input.toList ++ output.toList).map fun part => (participant,part.1) }
  | .post_cash participant currency _ => { cash := [(participant,currency)] }
  | .seed_position participant instrument _ _ => { positions := [(participant,instrument)] }
  | .set_mark instrument _ => { marks := [instrument] }

/-- Two ledgers that differ in a scope at most. -/
structure Confined (scope : Scope) (ledger ledger' : Ledger) : Prop where
  terms : ledger'.terms = ledger.terms
  cash : ∀ participant currency, (participant,currency) ∉ scope.cash →
    ledger'.cash.get? (toLex (participant,currency)) = ledger.cash.get? (toLex (participant,currency))
  positions : ∀ participant instrument, (participant,instrument) ∉ scope.positions →
    ledger'.positions.get? (toLex (participant,instrument)) = ledger.positions.get? (toLex (participant,instrument))
  marks : ∀ instrument, instrument ∉ scope.marks → ledger'.marks.get? instrument = ledger.marks.get? instrument

section Confined
variable {scope : Scope} {ledger ledger' ledger'' : Ledger} {participant : ParticipantId} {instrument : InstrumentId}
  {currency : CurrencyId}

theorem Confined.refl (scope : Scope) (ledger : Ledger) : Confined scope ledger ledger :=
  ⟨rfl,fun _ _ _ => rfl,fun _ _ _ => rfl,fun _ _ => rfl⟩

theorem Confined.trans (first : Confined scope ledger ledger') (second : Confined scope ledger' ledger'') :
    Confined scope ledger ledger'' :=
  ⟨second.terms.trans first.terms,fun p c outside => (second.cash p c outside).trans (first.cash p c outside),
    fun p i outside => (second.positions p i outside).trans (first.positions p i outside),
    fun i outside => (second.marks i outside).trans (first.marks i outside)⟩

theorem key_ne {a b c d : Nat} {l : List (Nat × Nat)} (inside : (a,b) ∈ l) (outside : (c,d) ∉ l) :
    (toLex (c,d) : Nat ×ₗ Nat) ≠ toLex (a,b) := by
  intro same
  cases toLex_inj.mp same
  exact outside inside

theorem Confined.cash_insert (inside : (participant,currency) ∈ scope.cash) (cash : CashBalance) :
    Confined scope ledger { ledger with cash := ledger.cash.insert (toLex (participant,currency)) cash } :=
  ⟨rfl,fun _ _ outside => OrdMap.get?_insert_of_ne (key_ne inside outside),fun _ _ _ => rfl,fun _ _ => rfl⟩

theorem Confined.position_insert (inside : (participant,instrument) ∈ scope.positions) (position : Position) :
    Confined scope ledger { ledger with
      positions := ledger.positions.insert (toLex (participant,instrument)) position } :=
  ⟨rfl,fun _ _ _ => rfl,fun _ _ outside => OrdMap.get?_insert_of_ne (key_ne inside outside),fun _ _ => rfl⟩

theorem Confined.put (cash_inside : (participant,currency) ∈ scope.cash)
    (inside : (participant,instrument) ∈ scope.positions) (cash : CashBalance) (position : Position) :
    Confined scope ledger (ledger.put participant currency instrument cash position) :=
  (Confined.cash_insert cash_inside cash).trans (.position_insert inside position)

end Confined

section Operations
variable {ledger ledger' : Ledger} {x : Unit} {instrument : InstrumentId} {terms : InstrumentTerms}

/-- Every operation checks and stages all it writes before it writes. -/
theorem Operation.atomic (operation : Operation) : Atomic operation.program := by
  cases operation with
  | open_order | close_order =>
    exact .get fun _ => .lift _ fun _ => .refuse _ _ fun _ => .lift _ fun _ => .lift _ fun _ => .refuse _ _ fun _ => .set _
  | settle =>
    exact .get fun _ => .lift _ fun _ => .refuse _ _ fun _ => .lift _ fun _ => .lift _ fun _ => .lift _ fun _ => .set _
  | convert => exact .get fun _ => .lift _ fun _ => .lift _ fun _ => .set _
  | post_cash => exact .refuse _ _ fun _ => .get fun _ => .lift _ fun _ => .set _
  | seed_position => exact .get fun _ => .lift _ fun _ => .set _
  | set_mark => exact .get fun _ => .lift _ fun _ => .refuse _ _ fun _ => .set _

variable {participant : ParticipantId}

theorem mem_accounts {participants : List ParticipantId} (found : ledger.terms.get? instrument = some terms)
    (member : participant ∈ participants) :
    (participant,terms.currency) ∈ (ledger.accounts instrument participants).cash ∧
      (participant,instrument) ∈ (ledger.accounts instrument participants).positions := by
  refine ⟨List.mem_flatMap.mpr ⟨participant,member,?_⟩,List.mem_map_of_mem member⟩
  simp [currency_of,found]

theorem change_open_confined {side : Side} {quantity : Int} {order : Reservation} {opening : Bool}
    (ran : (change_open participant instrument side quantity order opening).run ledger = .ok x ledger') :
    Confined (ledger.accounts instrument [participant]) ledger ledger' := by
  obtain ⟨terms,found,_,_,rfl⟩ := change_open_ok ran
  obtain ⟨cash,positions⟩ := mem_accounts found (List.mem_singleton_self participant)
  exact .put cash positions _ _

/-- One side of a fill writes the accounts of its party, and none for the house. -/
theorem Leg.confined {scope : Scope} {value : Int} {fill : Fill} {side : Side}
    {party : Option FillParty} (leg : Leg terms value fill side party ledger ledger')
    (inside : ∀ p ∈ party, (p.participant,terms.currency) ∈ scope.cash ∧ (p.participant,fill.instrument) ∈ scope.positions) :
    Confined scope ledger ledger' := by
  cases party with
  | none =>
    cases leg
    exact .refl _ _
  | some party =>
    obtain ⟨_,_,_,rfl⟩ := leg
    obtain ⟨cash,positions⟩ := inside party rfl
    exact .put cash positions _ _

theorem settle_confined {fill : Fill} (ran : (settle fill).run ledger = .ok x ledger') :
    Confined (Operation.scope ledger (.settle fill)) ledger ledger' := by
  obtain ⟨terms,bought,sold,found,_,_,buys,sells,rfl⟩ := settle_ok ran
  have inside (p : FillParty) (member : p ∈ fill.buyer.toList ++ fill.seller.toList) :=
    mem_accounts found (List.mem_map_of_mem (f := FillParty.participant) member)
  have legs : Confined (ledger.accounts fill.instrument
      ((fill.buyer.toList ++ fill.seller.toList).map FillParty.participant)) ledger sold :=
    (buys.confined fun p member => inside p (List.mem_append_left _ (Option.mem_toList.mpr member))).trans
      (sells.confined fun p member => inside p (List.mem_append_right _ (Option.mem_toList.mpr member)))
  refine { legs with marks := fun instrument outside => ?_ }
  by_cases marks : fill.set_mark = true
  · simp only [Operation.scope,marks,if_true,List.mem_singleton] at outside
    simp only [marks,if_true]
    exact OrdMap.get?_insert_of_ne outside
  · simp only [if_neg marks]

theorem convert_confined {input output : Option (InstrumentId × Int)}
    (ran : (convert participant input output).run ledger = .ok x ledger') :
    Confined (Operation.scope ledger (.convert participant input output)) ledger ledger' := by
  simp only [convert,returned] at ran
  obtain ⟨taken,takes,positions,gives,rfl⟩ := ran
  have inside (part : InstrumentId × Int) (member : part ∈ input.toList ++ output.toList) :
      (participant,part.1) ∈ (Operation.scope ledger (.convert participant input output)).positions :=
    List.mem_map_of_mem (f := fun part : InstrumentId × Int => (participant,part.1)) member
  have first : Confined (Operation.scope ledger (.convert participant input output)) ledger
      { ledger with positions := taken.1 } := by
    cases input with
    | none =>
      cases except_pure_eq_ok.mp takes
      exact .refl _ _
    | some part =>
      simp only [convert_taken,returned] at takes
      obtain ⟨holding,_,rfl⟩ := takes
      exact .position_insert (inside part (by simp)) _
  refine first.trans ?_
  cases output with
  | none =>
    cases except_pure_eq_ok.mp gives
    exact .refl _ _
  | some part =>
    simp only [convert_given,returned] at gives
    obtain ⟨_,_,_,_,_,_,_,rfl⟩ := gives
    exact @Confined.position_insert _ { ledger with positions := taken.1 } _ _ (inside part (by simp)) _

/-- A failing operation of the ledger changes nothing, and one that succeeds only the accounts and the mark it names. -/
theorem operation_frame (operation : Operation) (ledger : Ledger) :
    match operation.program.run ledger with
    | .error _ ledger' => ledger' = ledger
    | .ok _ ledger' => Confined (operation.scope ledger) ledger ledger' := by
  cases ran : operation.program.run ledger with
  | error e ledger' => exact operation.atomic ledger e ledger' ran
  | ok x ledger' =>
    cases operation with
    | open_order | close_order => exact change_open_confined ran
    | settle => exact settle_confined ran
    | convert => exact convert_confined ran
    | post_cash =>
      obtain ⟨_,rfl⟩ := post_cash_ok ran
      exact .cash_insert (List.mem_singleton_self _) _
    | seed_position =>
      simp only [Operation.program,seed_position,returned] at ran
      obtain ⟨_,_,rfl⟩ := ran
      exact .position_insert (List.mem_singleton_self _) _
    | set_mark =>
      obtain ⟨_,_,rfl⟩ := set_mark_ok ran
      exact ⟨rfl,fun _ _ _ => rfl,fun _ _ _ => rfl,fun _ outside => OrdMap.get?_insert_of_ne fun same =>
      outside (same ▸ List.mem_singleton_self _)⟩

end Operations
end Ledger
end Bunting
