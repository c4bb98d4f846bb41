import Bunting.Accounts
import Bunting.Costs

/-!
Postings from outside the order flow: cashflows, fines, tenders, negotiations
and facility jobs. None of them opens or holds anything. What they do to an
account, and to the totals, is the sum of their entries.
-/

namespace Bunting
open Stateful

/-- An entry that opens and holds nothing. -/
def Entry.Free (e : Entry) : Prop :=
  e.cash.reserved = 0 ∧ e.lots.reserved = 0 ∧ e.lots.open_buy = 0 ∧ e.lots.open_sell = 0

theorem Entry.Free.change {e : Entry} (free : e.Free) (counter : Counter) : counter.change e = 0 := by
  obtain ⟨cash,lots,buys,sells⟩ := free
  cases counter <;> simp [Counter.change,cash,lots,buys,sells]

/-- What an entry does to one cash account, to one position, and to the totals. -/
def Entry.paid (p : ParticipantId) (c : CurrencyId) (e : Entry) : Int :=
  if p = e.participant ∧ c = e.currency then e.cash.balance else 0
def Entry.moved (p : ParticipantId) (i : InstrumentId) (e : Entry) : Int :=
  if p = e.participant ∧ i = e.instrument then e.lots.quantity else 0
def Entry.cash_in (c : CurrencyId) (e : Entry) : Int := if e.currency = c then e.cash.balance + e.cash.fees else 0
def Entry.lots_in (i : InstrumentId) (e : Entry) : Int := if e.instrument = i then e.lots.quantity else 0

namespace Ledger

inductive PostsAll : List Entry → Ledger → Ledger → Prop
  | nil {ledger} : PostsAll [] ledger ledger
  | cons {e es ledger between ledger'} (first : Posts e ledger between) (rest : PostsAll es between ledger') :
      PostsAll (e :: es) ledger ledger'

namespace PostsAll
variable {es fs : List Entry} {e : Entry} {ledger between ledger' : Ledger}

theorem single (posts : Posts e ledger ledger') : PostsAll [e] ledger ledger' := .cons posts .nil

theorem append (first : PostsAll es ledger between) (rest : PostsAll fs between ledger') :
    PostsAll (es ++ fs) ledger ledger' := by
  induction first with
  | nil => exact rest
  | cons posts _ ih => exact .cons posts (ih rest)

variable (posts : PostsAll es ledger ledger')
include posts

theorem terms : ledger'.terms = ledger.terms := by
  induction posts with
  | nil => rfl
  | cons first _ ih => rw [ih,first.terms]

theorem marks : ledger'.marks = ledger.marks := by
  induction posts with
  | nil => rfl
  | cons first _ ih => rw [ih,first.marks]

theorem balance (p : ParticipantId) (c : CurrencyId) :
    (ledger'.cash_of p c).balance = (ledger.cash_of p c).balance + (es.map (Entry.paid p c)).sum := by
  induction posts with
  | nil => simp
  | cons first _ ih => rw [ih,first.balance,List.map_cons,List.sum_cons,Entry.paid]; omega

theorem quantity (p : ParticipantId) (i : InstrumentId) :
    (ledger'.position_of p i).quantity = (ledger.position_of p i).quantity + (es.map (Entry.moved p i)).sum := by
  induction posts with
  | nil => simp
  | cons first _ ih => rw [ih,first.quantity,List.map_cons,List.sum_cons,Entry.moved]; omega

theorem total_cash (c : CurrencyId) :
    ledger'.total_cash c = ledger.total_cash c + (es.map (Entry.cash_in c)).sum := by
  induction posts with
  | nil => simp
  | cons first _ ih => rw [ih,first.total_cash,List.map_cons,List.sum_cons,Entry.cash_in]; omega

theorem total_lots (i : InstrumentId) :
    ledger'.total_lots i = ledger.total_lots i + (es.map (Entry.lots_in i)).sum := by
  induction posts with
  | nil => simp
  | cons first _ ih => rw [ih,first.total_lots,List.map_cons,List.sum_cons,Entry.lots_in]; omega

theorem cash_held {key : ParticipantId ×ₗ CurrencyId} (held : ledger'.cash.contains key = true) :
    ledger.cash.contains key = true ∨ ∃ e ∈ es, key = toLex (e.participant,e.currency) := by
  induction posts with
  | nil => exact .inl held
  | cons first _ ih =>
    rcases ih held with before | ⟨e,member,here⟩
    · rcases first.cash_held _ before with before | here
      · exact .inl before
      · exact .inr ⟨_,List.mem_cons_self,here⟩
    · exact .inr ⟨e,List.mem_cons_of_mem _ member,here⟩

theorem reserved (free : ∀ e ∈ es, e.Free) (counter : Counter) :
    counter.read ledger' = counter.read ledger := by
  induction posts with
  | nil => rfl
  | cons first _ ih =>
    rw [ih fun e member => free e (List.mem_cons_of_mem _ member),Counter.read_of_posts first,
      (free _ List.mem_cons_self).change,add_zero]

end PostsAll

end Ledger

/-- Lots that come without cash come into a holding that is not short. -/
def Receives (es : List Entry) (ledger : Ledger) : Prop :=
  ∀ earlier e later, es = earlier ++ e :: later → e.cash.balance = 0 → 0 < e.lots.quantity →
    0 ≤ (ledger.position_of e.participant e.instrument).quantity +
      (earlier.map (Entry.moved e.participant e.instrument)).sum

section Receives
variable {es fs : List Entry} {ledger between : Ledger}

theorem receives_iff : Receives es ledger ↔ ∀ n ∈ List.range es.length, ∀ e ∈ es[n]?, e.cash.balance = 0 → 0 < e.lots.quantity →
    0 ≤ (ledger.position_of e.participant e.instrument).quantity +
      ((es.take n).map (Entry.moved e.participant e.instrument)).sum := by
  constructor
  · intro receives n inside e here
    obtain ⟨within,rfl⟩ := List.getElem?_eq_some_iff.mp here
    exact receives (es.take n) es[n] (es.drop (n + 1)) (by simp)
  · rintro holds earlier e later rfl
    have here := holds earlier.length (by simp) e (by simp)
    simpa using here

instance (es : List Entry) (ledger : Ledger) : Decidable (Receives es ledger) := decidable_of_iff _ receives_iff.symm

theorem Receives.first (receives : Receives (es ++ fs) ledger) : Receives es ledger := by
  rintro earlier e later rfl
  exact receives earlier e (later ++ fs) (by simp)

theorem Receives.rest (receives : Receives (es ++ fs) ledger) (posts : Ledger.PostsAll es ledger between) :
    Receives fs between := by
  rintro earlier e later rfl unpaid lots
  have held := receives (es ++ earlier) e later (by simp) unpaid lots
  rw [posts.quantity]
  rw [List.map_append,List.sum_append] at held
  omega

/-- It depends on the lots held only. -/
theorem Receives.congr (receives : Receives es ledger)
    (same : ∀ p i, (between.position_of p i).quantity = (ledger.position_of p i).quantity) : Receives es between := by
  intro earlier e later split unpaid lots
  rw [same]
  exact receives earlier e later split unpaid lots

theorem receives_of_none (none : ∀ e ∈ es, e.lots.quantity ≤ 0) (ledger : Ledger) : Receives es ledger := by
  rintro earlier e later rfl _ lots
  have := none e (by simp)
  omega

end Receives

/-- Entries that hold nothing, and after which the accounts agree with the live orders as before. -/
structure Neutral (setup : Setup) (es : List Entry) (ledger ledger' : Ledger) : Prop where
  posts : Ledger.PostsAll es ledger ledger'
  free : ∀ e ∈ es, e.Free
  accounts : ∀ {ownership}, Accounts setup ledger ownership → Accounts setup ledger' ownership

/-- Neutral entries after which costs have the sign of their holdings as before. -/
structure External (setup : Setup) (es : List Entry) (ledger ledger' : Ledger) : Prop extends
    Neutral setup es ledger ledger' where
  signed : Receives es ledger → ledger.Signed → ledger'.Signed

namespace Neutral
variable {setup : Setup} {es fs : List Entry} {e : Entry} {ledger between ledger' : Ledger}

theorem nil : Neutral setup [] ledger ledger := ⟨.nil,by simp,fun accounts => accounts⟩

theorem append (first : Neutral setup es ledger between) (rest : Neutral setup fs between ledger') :
    Neutral setup (es ++ fs) ledger ledger' :=
  ⟨first.posts.append rest.posts,fun e member => (List.mem_append.mp member).elim (first.free e) (rest.free e),
    fun accounts => rest.accounts (first.accounts accounts)⟩

theorem single (posts : Ledger.Posts e ledger ledger') (free : e.Free)
    (stock : ∀ T, setup.terms.get? e.instrument = some T → T.shortable = false →
      (ledger.position_of e.participant e.instrument).reserved ≤
        (ledger.position_of e.participant e.instrument).quantity →
      (ledger.position_of e.participant e.instrument).reserved ≤
        (ledger.position_of e.participant e.instrument).quantity + e.lots.quantity)
    (known : e.lots ≠ {} → ∃ T, setup.terms.get? e.instrument = some T) : Neutral setup [e] ledger ledger' := by
  refine ⟨.single posts,fun _ member => List.mem_singleton.mp member ▸ free,fun accounts =>
    accounts.post posts (fun counter => by rw [free.change,add_zero]) (fun T found short => ?_) known⟩
  rw [free.2.1,add_zero]
  refine stock T found short (accounts.stocked _ _ T ?_ short)
  rw [accounts.terms]
  exact found

end Neutral

namespace External
variable {setup : Setup} {es fs : List Entry} {e : Entry} {ledger between ledger' : Ledger}
  {context : SimulationContext}

theorem nil : External setup [] ledger ledger := ⟨.nil,fun _ signed => signed⟩

theorem append (first : External setup es ledger between) (rest : External setup fs between ledger') :
    External setup (es ++ fs) ledger ledger' :=
  ⟨first.toNeutral.append rest.toNeutral,fun receives signed =>
    rest.signed (receives.rest first.posts) (first.signed receives.first signed)⟩

variable {participant : ParticipantId} {x : Unit}

theorem post_cash {currency : CurrencyId} {amount : Int}
    (ran : (Ledger.post_cash participant currency amount).run ledger = .ok x ledger') :
    External setup [⟨participant,currency,0,{ balance := amount },{}⟩] ledger ledger' := by
  obtain ⟨_,posts⟩ := Ledger.post_cash_posts ran
  exact ⟨.single posts ⟨rfl,rfl,rfl,rfl⟩ (fun _ _ _ stocked => by simpa using stocked) fun some_lots => absurd rfl some_lots,
    fun _ signed => signed.post_cash ran⟩

def converted (terms : OrdMap InstrumentId InstrumentTerms) (participant : ParticipantId) (sign : Int)
    (part : Option (InstrumentId × Int)) : List Entry :=
  part.toList.map (fun part =>
    ⟨participant,currency_of terms part.1,part.1,{},{ quantity := sign * part.2 }⟩)

private theorem part {sign : Int} {given : Option (InstrumentId × Int)} (terms : ledger.terms = setup.terms)
    (converts : Ledger.Converts participant sign given ledger ledger')
    (stock : ∀ taken ∈ given, 0 < taken.2 → (ledger.position_of participant taken.1).reserved ≤
      (ledger.position_of participant taken.1).quantity → (ledger.position_of participant taken.1).reserved ≤
        (ledger.position_of participant taken.1).quantity + sign * taken.2) :
    Neutral setup (converted setup.terms participant sign given) ledger ledger' := by
  cases given with
  | none => cases converts; exact .nil
  | some given =>
    obtain ⟨positive,T,known,posts⟩ := converts
    rw [terms] at known
    have currency : currency_of setup.terms given.1 = T.currency := by rw [currency_of,known]; rfl
    simp only [converted,Option.toList_some,List.map_cons,List.map_nil,currency]
    exact .single posts ⟨rfl,rfl,rfl,rfl⟩ (fun _ _ _ => stock given rfl positive) fun _ => ⟨T,known⟩

theorem convert {input output : Option (InstrumentId × Int)} (terms : ledger.terms = setup.terms)
    (ran : (Ledger.convert participant input output).run ledger = .ok x ledger') :
    External setup (converted setup.terms participant (-1) input ++ converted setup.terms participant 1 output)
      ledger ledger' := by
  obtain ⟨holds,between,takes,gives⟩ := Ledger.convert_posts ran
  have first : Neutral setup (converted setup.terms participant (-1) input) ledger between :=
    part terms takes fun taken member _ _ => by have := (holds taken member).2; omega
  refine ⟨first.append (part (first.posts.terms.trans terms) gives fun _ _ _ _ => by omega),fun receives signed =>
    signed.convert ran fun given member => ?_⟩
  -- The output comes after the input, which leaves its holding long.
  obtain ⟨i,q⟩ := given
  subst member
  have held := receives (converted setup.terms participant (-1) input) _ [] rfl rfl
    (by simpa [Ledger.Converts] using (show Ledger.Converts participant 1 (some (i,q)) between ledger' from gives).1)
  cases input with
  | none => simpa [converted] using held
  | some taken =>
    have := (holds taken rfl).1
    simp only [converted,Option.toList_some,List.map_cons,List.map_nil,List.sum_cons,List.sum_nil,Entry.moved] at held
    simp only
    split_ifs at held <;> omega

/-- What one side of a fill without an order or a fee posts. -/
def exchanged (participant : ParticipantId) (currency : CurrencyId) (fill : Fill) (side : Side) (value : Int) : Entry :=
  ⟨participant,currency,fill.instrument,{ balance := -side.signed value },{ quantity := side.signed fill.quantity }⟩

/-- What the sides of such a fill post, as far as they are not the house. -/
def exchange (T : InstrumentTerms) (fill : Fill) : List Entry :=
  let part (side : Side) (party : FillParty) :=
    exchanged party.participant T.currency fill side (fill.price * fill.quantity * T.multiplier)
  fill.buyer.toList.map (part .Buy) ++ fill.seller.toList.map (part .Sell)

private theorem leg {T : InstrumentTerms} {value : Int} {fill : Fill} {side : Side} {party : Option FillParty}
    (leg : Ledger.Leg T value fill side party ledger ledger') (known : setup.terms.get? fill.instrument = some T)
    (plain : ∀ p ∈ party, p.order = none ∧ p.fee = 0) (positive : 0 < fill.quantity) :
    Neutral setup (party.toList.map fun p => exchanged p.participant T.currency fill side value) ledger ledger' := by
  cases party with
  | none => cases leg; exact .nil
  | some party =>
    obtain ⟨no_order,no_fee⟩ := plain party rfl
    obtain ⟨posts,_,funds⟩ := Ledger.leg_posts leg positive
    have entry : Entry.leg T value fill side party = exchanged party.participant T.currency fill side value := by
      simp [Entry.leg,exchanged,no_order,no_fee]
    rw [entry] at posts
    refine .single posts ⟨rfl,rfl,rfl,rfl⟩ (fun T' found short stocked => ?_) fun _ => ⟨T,known⟩
    cases known.symm.trans found
    cases side with
    | Buy =>
      simp only [exchanged,Side.signed_buy] at stocked ⊢
      omega
    | Sell =>
      have delivers := funds.2 rfl short
      rw [no_order] at delivers
      simp only [exchanged,Side.signed_sell]
      exact delivers

/-- A fill that leaves the marks alone is its legs. -/
private theorem settle {fill : Fill} (terms : ledger.terms = setup.terms) (unmarked : fill.set_mark = false)
    (bought : ∀ p ∈ fill.buyer, p.order = none ∧ p.fee = 0) (sold : ∀ p ∈ fill.seller, p.order = none ∧ p.fee = 0)
    (ran : (Ledger.settle fill).run ledger = .ok x ledger') :
    ∃ T, setup.terms.get? fill.instrument = some T ∧ External setup (exchange T fill) ledger ledger' := by
  have signed : ledger.Signed → ledger'.Signed := fun signed => signed.settle ran
  obtain ⟨T,_,_,known,positive,_,buys,sells,rfl⟩ := Ledger.settle_ok ran
  rw [terms] at known
  have posted := (leg buys known bought positive).append (leg sells known sold positive)
  rw [unmarked,if_neg Bool.false_ne_true,← posted.posts.marks] at signed ⊢
  exact ⟨T,known,posted,fun _ => signed⟩

theorem settle_tender {tender : TenderState} (terms : ledger.terms = setup.terms)
    (ran : (Ledger.settle (tender.fill context)).run ledger = .ok x ledger') :
    ∃ T, setup.terms.get? tender.instrument_id = some T ∧
      External setup [⟨tender.participant_id,T.currency,tender.instrument_id,
        { balance := -tender.side.signed (tender.price * tender.quantity * T.multiplier) },
        { quantity := tender.side.signed tender.quantity }⟩] ledger ledger' := by
  unfold TenderState.fill at ran
  cases side : tender.side with
  | Buy =>
    rw [side] at ran
    exact settle terms rfl (by simp [SimulationContext.party]) (by simp) ran
  | Sell =>
    rw [side] at ran
    exact settle terms rfl (by simp) (by simp [SimulationContext.party]) ran

theorem settle_otc {instrument : InstrumentId} {price quantity : Int}
    {buyer seller : ParticipantId} (terms : ledger.terms = setup.terms)
    (ran : (Ledger.settle ⟨instrument,price,quantity,some (context.party buyer),some (context.party seller),false⟩).run
      ledger = .ok x ledger') :
    ∃ T, setup.terms.get? instrument = some T ∧
      External setup [⟨buyer,T.currency,instrument,{ balance := -(price * quantity * T.multiplier) },{ quantity }⟩,
        ⟨seller,T.currency,instrument,{ balance := price * quantity * T.multiplier },{ quantity := -quantity }⟩]
        ledger ledger' := by
  obtain ⟨T,known,posted⟩ :=
    settle terms rfl (by simp [SimulationContext.party]) (by simp [SimulationContext.party]) ran
  exact ⟨T,known,by simpa [exchange,exchanged,SimulationContext.party] using posted⟩

end External

end Bunting
