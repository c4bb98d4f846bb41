import Bunting.BnpCodec
import Bunting.Framing

/-!
BNP messages over the wire. Every message is read back from the fields written
for it, a frame that cannot be written leaves the output as it was, and the
frame decoder finds the frames however their bytes are cut into chunks.
-/

namespace Bunting.Bnp
open Stateful Codecs Bytes Framing

namespace Fields
variable {α : Type} {write : α → Writer Unit} {read : Reader α}

theorem u8 {value : UInt8} : Codes (Writer.u8 value) Reader.u8 value :=
  have array : Codes (Codecs.Writer.bytes [value]) (Reader.bytes 1) [value] := .bytes [value]
  array.read_as rfl

theorem u16 {value : U16} : Codes (Writer.u16 value) Reader.u16 value := Codes.le (by rfl : 16 = 8 * 2) value
theorem u32 {value : U32} : Codes (Writer.u32 value) Reader.u32 value := Codes.le (by rfl : 32 = 8 * 4) value
theorem u64 {value : U64} : Codes (Writer.u64 value) Reader.u64 value := Codes.le (by rfl : 64 = 8 * 8) value
theorem i64 {value : I64} : Codes (Writer.i64 value) Reader.i64 value := Codes.le (by rfl : 64 = 8 * 8) value
theorem u128 {value : U128} : Codes (Writer.u128 value) Reader.u128 value := Codes.le (by rfl : 128 = 8 * 16) value
theorem i128 {value : I128} : Codes (Writer.i128 value) Reader.i128 value := Codes.le (by rfl : 128 = 8 * 16) value

theorem bool {value : Bool} : Codes (Writer.bool value) Reader.bool value :=
  u8.read_as (by cases value <;> rfl)

theorem wire [WireEnum α] {x : α} : Codes (Writer.u8 (to_wire x)) (Reader.wire α) x :=
  u8.read_as (by rw [from_to_wire]; rfl)

theorem option {value : Option α}
    (codes : ∀ {x}, Codes (write x) read x) : Codes (Writer.option value write) (Reader.option read) value := by
  cases value with
  | none =>
    have absent : Codes (Writer.bool false) Reader.bool false := bool
    exact absent.read_as rfl
  | some x =>
    have present : Codes (Writer.bool true) Reader.bool true := bool
    exact present.next codes.last

theorem toNat_count {n limit : Nat} (small : ¬ (65535 < n ∨ limit < n)) : (BitVec.ofNat 16 n).toNat = n ∧ ¬ n > limit := by
  obtain ⟨fits,bound⟩ := not_or.mp small
  rw [BitVec.toNat_ofNat]
  omega

theorem string {value : String} : Codes (Writer.string value) Reader.string value := by
  refine .refuse fun short => ?_
  obtain ⟨length,bound⟩ := toNat_count short
  refine .next u16 ?_
  rw [length]
  refine .checked bound ?_
  exact (Codes.bytes (as_bytes value)).read_as (by rw [from_utf8_as_bytes]; rfl)

theorem listing {listing : Listing} : Codes (Writer.listing listing) Reader.listing listing := .next u128 <| .last u128

theorem stamp {stamp : Stamp} : Codes (Writer.stamp stamp) Reader.stamp stamp := .next u64 <| .last u64

theorem level (level : Level) : Codes (Writer.level level) Reader.level level := .next i64 <| .last i64

theorem group {items : List α} {e : WireError} {left : List UInt8}
    (needs : read.run [] = .error e left) (codes : ∀ x, Codes (write x) read x) :
    Codes (Writer.group items write) (Reader.group read) items := by
  refine .refuse fun short => ?_
  obtain ⟨length,bound⟩ := toNat_count short
  refine .next u16 ?_
  rw [length]
  exact .checked bound (.bounded (fun x _ => codes x) needs)

end Fields
open Fields

/-! ### Records -/

theorem codes_audience {audience : NewsAudience} : Codes (write_audience audience) read_audience audience := by
  cases audience with
  | Public => exact u8.read_as rfl
  | Participant id => exact .next u8 <| .last u128
  | Team id => exact .next u8 <| .last u128
  | Role role => exact .next u8 <| .last string

theorem codes_operator_action {action : OperatorAction} :
    Codes (write_operator_action action) read_operator_action action := by
  cases action with
  | Start | Pause | Resume | Score => exact .next u8 <| .done _
  | Advance => exact .next u8 <| .last u32
  | Terminate => exact .next u8 <| .last string
  | Halt => exact .next u8 <| .next u128 <| .next bool <| .last string
  | MassCancel => exact .next u8 <| .next (option u128) <| .last (option u128)
  | PublishNews => exact .next u8 <| .next u128 <| .next codes_audience <| .next string <| .last string
  | Fine => exact .next u8 <| .next u128 <| .next u128 <| .next i128 <| .last string
  | OpenTender =>
    exact .next u8 <| .next u128 <| .next u128 <| .next u128 <| .next wire <| .next i64 <| .next i64 <| .last u64

theorem codes_tender (tender : TenderInfo) : Codes (write_tender tender) read_tender tender :=
  .next u128 <| .next u128 <| .next u128 <| .next wire <| .next i64 <| .next i64 <| .next u64 <| .last wire

theorem codes_negotiation (negotiation : NegotiationInfo) :
    Codes (write_negotiation negotiation) read_negotiation negotiation :=
  .next u128 <| .next u128 <| .next u128 <| .next u128 <| .next wire <| .next i64 <| .next i64 <| .next u64 <|
    .next wire <| .last u128

theorem codes_order_type {order_type : OrderType} : Codes (write_order_type order_type) read_order_type order_type := by
  cases order_type with
  | Limit price => exact .next u8 <| .last i64
  | Market => exact .next u8 <| i64.read_as rfl

theorem codes_time_in_force {time_in_force : TimeInForce} :
    Codes (write_time_in_force time_in_force) read_time_in_force time_in_force := by
  cases time_in_force <;> exact .next u8 <| u64.read_as rfl

theorem codes_new_order {order : NewOrder} : Codes (write_new_order order) read_new_order order :=
  .next u64 <| .next listing <| .next wire <| .next i64 <| .next codes_order_type <| .next codes_time_in_force <| .next bool <|
    .next bool <| .last (option i64)

theorem codes_instrument (instrument : InstrumentInfo) : Codes (write_instrument instrument) read_instrument instrument :=
  .next u128 <| .next string <| .next wire <| .next (option u128) <| .next (option i64) <| .next (option u64) <|
    .next bool <| .next bool <| .next u32 <| .next (group rfl fun _ => .next u128 <| .last i64) <| .next i64 <|
    .next u128 <| .next u8 <| .next bool <| .next bool <| .next (option u64) <| .next (option u64) <| .next string <|
    .next string <| .next (option i64) <| .last (option i64)

theorem codes_currency (currency : CurrencyInfo) : Codes (write_currency currency) read_currency currency :=
  .next u128 <| .next string <| .next string <| .last u8

theorem codes_listing_reference (reference : ListingReference) :
    Codes (write_listing_reference reference) read_listing_reference reference :=
  .next listing <| .next string <| .next i64 <| .next i64 <| .next i64 <| .next i128 <| .next i128 <| .next bool <|
    .next bool <| .next bool <| .last bool

theorem codes_book_order (order : BookOrder) : Codes (write_book_order order) read_book_order order :=
  .next wire <| .next u64 <| .next i64 <| .next i64 <| .next (option u128) <| .last u32

/-- No order action has the byte of a trade. -/
theorem codes_order_entry (entry : OrderEntry) : Codes (write_order_entry entry) read_order_entry entry := by
  cases entry with
  | Trade => exact .next u8 <| .next i64 <| .next i64 <| .next (option u64) <| .next (option u128) <| .last (option u128)
  | Order action side reference price quantity broker =>
    refine .next u8 ?_
    have other : to_wire action ≠ ORDER_ENTRY_TRADE := by cases action <;> decide
    have known : (liftM (from_wire (to_wire action) : Except WireError OrderAction) : Reader OrderAction) = pure action := by
      rw [from_to_wire]
      rfl
    rw [if_neg other,known,pure_bind]
    exact .next wire <| .next u64 <| .next i64 <| .next i64 <| .last (option u128)

theorem codes_tape_quote (quote : TapeQuote) : Codes (write_tape_quote quote) read_tape_quote quote :=
  .next u128 <| .next wire <| .next i64 <| .last i64

theorem codes_tape_entry (entry : TapeEntry) : Codes (write_tape_entry entry) read_tape_entry entry :=
  .next u128 <| .next wire <| .next i64 <| .last i64

theorem codes_entry (entry : Entry) : Codes (write_entry entry) read_entry entry :=
  .next wire <| .next i64 <| .last i64

theorem codes_listing_info (info : ListingInfo) : Codes (write_listing_info info) read_listing_info info :=
  .next listing <| .last string

theorem codes_open_order (order : OpenOrder) : Codes (write_open_order order) read_open_order order :=
  .next u64 <| .next u128 <| .next listing <| .next wire <| .next i64 <| .next i64 <| .last i64

theorem codes_cash_balance (balance : CashBalance) : Codes (write_cash_balance balance) read_cash_balance balance :=
  .next u128 <| .next i128 <| .last i128

theorem codes_position (position : Position) : Codes (write_position position) read_position position :=
  .next u128 <| .next i64 <| .next i64 <| .last i64

theorem codes_welcome {welcome : Welcome} : Codes (write_welcome welcome) read_welcome welcome :=
  .next u16 <| .next u128 <| .next u128 <| .next wire <| .next u32 <| .next u32 <| .next wire <| .last u64

theorem codes_flags {flags : FeedFlags} : Codes (Writer.u8 flags.to_wire) read_flags flags := by
  refine u8.read_as ?_
  rw [FeedFlags.to_wire,FeedFlags.from_wire,dif_pos flags.known]
  rfl

/-! ### Messages -/

theorem codes_client (message : ClientMessage) : Codes (write_client message) (read_client message.msg_type) message := by
  cases message with
  | Hello version resume_after client_name =>
    refine .next (.bytes MAGIC) ?_
    exact .checked (not_not.mpr rfl) <| .next u16 <| .next (option u64) <| .last string
  | Heartbeat => exact .done _
  | ProbeReply | Ping | CancelOrder | KillSwitch | KillSwitchReset => exact .last u64
  | Logout => exact .last string
  | NewOrder => exact .last codes_new_order
  | Subscribe => exact .next u32 <| .next listing <| .last codes_flags
  | Unsubscribe | ListingsRequest | OpenOrdersRequest | AccountRequest | DealsRequest => exact .last u32
  | SnapshotRequest => exact .next u32 <| .next listing <| .last u16
  | OperatorCommand => exact .next u64 <| .last codes_operator_action
  | TenderDecision => exact .next u64 <| .next u128 <| .last bool
  | OtcPropose =>
    exact .next u64 <| .next u64 <| .next u128 <| .next u128 <| .next wire <| .next i64 <| .next i64 <| .last u64
  | OtcCounter => exact .next u64 <| .next u128 <| .next i64 <| .last i64
  | OtcDecision => exact .next u64 <| .next u128 <| .last wire
  | Enroll => exact .next string <| .last string
  | ReferenceDataRequest => exact .next u32 <| .next (option u128) <| .last u16

theorem codes_server (message : ServerMessage) : Codes (write_server message) (read_server message.msg_type) message := by
  cases message with
  | Welcome => exact .last codes_welcome
  | Heartbeat => exact .done _
  | Probe | ReplayComplete => exact .last u64
  | Pong | OperatorDone | DealDone => exact .next u64 <| .last u64
  | Reject => exact .next u8 <| .next u64 <| .last string
  | Logout => exact .last string
  | Tender => exact .next stamp <| .last (codes_tender _)
  | Negotiation => exact .next stamp <| .last (codes_negotiation _)
  | Deals => exact .next u32 <| .next u64 <| .next (group rfl codes_tender) <| .last (group rfl codes_negotiation)
  | Enrolled => exact .next u128 <| .next string <| .last string
  | ReferenceData =>
    exact .next u32 <| .next u64 <| .next (option u128) <| .next (group rfl codes_currency) <|
      .next (group rfl codes_instrument) <| .last (group rfl codes_listing_reference)
  | RunStatus => exact .next stamp <| .last string
  | ListingHalt => exact .next stamp <| .next u128 <| .last bool
  | News => exact .next stamp <| .next u128 <| .next string <| .last string
  | AccessDelay => exact .next wire <| .next (option u64) <| .next (option u64) <| .last u64
  | OrderSnapshot => exact .next u32 <| .next listing <| .next u64 <| .next bool <| .last (group rfl codes_book_order)
  | OrderUpdate => exact .next u32 <| .next listing <| .next u64 <| .last (group rfl codes_order_entry)
  | TapeSnapshot => exact .next u32 <| .next u128 <| .next u64 <| .last (group rfl codes_tape_quote)
  | TapeUpdate => exact .next u32 <| .next u128 <| .next u64 <| .last (group rfl codes_tape_entry)
  | OrderAccepted =>
    exact .next stamp <| .next u64 <| .next u128 <| .next listing <| .next wire <| .next i64 <| .last (option i64)
  | OrderRejected | CancelRejected => exact .next stamp <| .next u64 <| .last wire
  | OrderRested => exact .next stamp <| .next u64 <| .next u128 <| .next i64 <| .next i64 <| .last (option u64)
  | OrderReduced => exact .next stamp <| .next u64 <| .next u128 <| .next i64 <| .last (option u64)
  | Fill =>
    exact .next stamp <| .next u64 <| .next u128 <| .next listing <| .next wire <| .next i64 <| .next i64 <|
      .next i128 <| .last wire
  | OrderDone => exact .next stamp <| .next u64 <| .last u128
  | OrderCanceled => exact .next stamp <| .next u64 <| .next u128 <| .next i64 <| .last wire
  | PositionChanged => exact .next stamp <| .next u128 <| .last i64
  | BalanceChanged => exact .next stamp <| .last i128
  | KillSwitchActivated | KillSwitchReset => exact .last stamp
  | MarketSnapshot => exact .next u32 <| .next listing <| .next u64 <| .next (group rfl level) <| .last (group rfl level)
  | MarketUpdate => exact .next u32 <| .next listing <| .next u64 <| .last (group rfl codes_entry)
  | Listings => exact .next u32 <| .last (group rfl codes_listing_info)
  | OpenOrders => exact .next u32 <| .next u64 <| .last (group rfl codes_open_order)
  | Account => exact .next u32 <| .next u64 <| .next (group rfl codes_cash_balance) <| .last (group rfl codes_position)

/-! ### Frames -/

/-- A frame with its length before it. -/
def framed (frame : List UInt8) : List UInt8 := to_le_bytes LENGTH_BYTES frame.length ++ frame

section Frames
variable {M : Type} {kind : UInt8} {body : Writer Unit} {r : Reader M} {message : M} {out out' : List UInt8}

/-- A frame is appended whole, or the output is left as it was. -/
theorem frame_run (codes : Codes body r message) (kind : UInt8) (out : List UInt8) :
    (∃ bytes, bytes.length + 1 ≤ MAX_FRAME_BYTES ∧ (frame kind body).run out = .ok () (out ++ framed (kind :: bytes)) ∧
      ∀ rest, r.run (bytes ++ rest) = .ok message rest) ∨
    ∃ e, (frame kind body).run out = .error e out := by
  obtain ⟨bytes,⟨wrote,reads⟩ | ⟨e,failed⟩⟩ := codes (out ++ List.replicate LENGTH_BYTES 0 ++ [kind])
  · have length : (out ++ List.replicate LENGTH_BYTES 0 ++ [kind] ++ bytes).length - out.length - LENGTH_BYTES =
        bytes.length + 1 := by simp
    have cut : (out ++ List.replicate LENGTH_BYTES 0 ++ [kind] ++ bytes).take out.length = out := by simp
    have tail : (out ++ List.replicate LENGTH_BYTES 0 ++ [kind] ++ bytes).drop (out.length + LENGTH_BYTES) =
        kind :: bytes := by simp
    by_cases large : bytes.length + 1 > MAX_FRAME_BYTES
    · refine .inr ⟨.FrameTooLarge MAX_FRAME_BYTES (bytes.length + 1),?_⟩
      change frame kind body out = _
      simp only [frame,wrote,length,cut,except_refuse,large,if_true]
      rfl
    · refine .inl ⟨bytes,not_lt.mp large,?_,reads⟩
      have fits : ¬ bytes.length + 1 > 4294967295 := by
        have bound : MAX_FRAME_BYTES = 65536 := rfl
        omega
      change frame kind body out = _
      simp only [frame,wrote,length,cut,tail,except_refuse,large,fits,if_false]
      simp [framed,List.append_assoc]
      rfl
  · refine .inr ⟨e,?_⟩
    have cut : (out ++ List.replicate LENGTH_BYTES 0 ++ [kind] ++ bytes).take out.length = out := by simp
    change frame kind body out = _
    simp only [frame,failed,cut]
    rfl

theorem decode_of_codes {read : UInt8 → Reader M} {bytes : List UInt8}
    (reads : ∀ rest, (read kind).run (bytes ++ rest) = .ok message rest) : decode read (kind :: bytes) = .ok message := by
  have all := reads []
  rw [List.append_nil] at all
  have ran : EStateM.run (do let message ← read kind; Reader.finish; pure message) bytes = .ok message [] := by
    rw [EStateM.run_bind,all]
    rfl
  rw [decode,ran]
  rfl

end Frames

namespace FrameDecoder
variable {max : Nat} {buffer rest f part : List UInt8} {frames chunks : List (List UInt8)} {n : Nat}

theorem next_frame_len_eq_some :
    next_frame_len max buffer = .ok (some n) ↔
      ∃ length, length = from_le_bytes (buffer.take LENGTH_BYTES) ∧ n = LENGTH_BYTES + length ∧ length ≠ 0 ∧ length ≤ max ∧
        n ≤ buffer.length := by
  unfold next_frame_len
  split_ifs with short
  · constructor
    · rintro ⟨⟩
    · rintro ⟨length,_,rfl,_,_,enough⟩
      omega
  · simp only [except_bind_eq_ok,except_refuse_eq_ok,not_lt,gt_iff_lt]
    constructor
    · rintro ⟨_,some_bytes,_,small,ran⟩
      split_ifs at ran with unfinished
      · cases ran
      · cases ran
        exact ⟨_,rfl,rfl,some_bytes,small,not_lt.mp unfinished⟩
    · rintro ⟨length,rfl,rfl,some_bytes,small,enough⟩
      refine ⟨⟨⟩,some_bytes,⟨⟩,small,?_⟩
      rw [if_neg (not_lt.mpr enough)]
      rfl

/-- Frames of BNP, under the limit of a decoder. -/
def framer (max : Nat) : Framer UInt8 WireError where
  first := next_frame_len max
  empty := rfl
  reads buffer n := by
    simp only [next_frame_len_eq_some,List.length_take]
    constructor
    · rintro ⟨length,read,rfl,some_bytes,small,enough⟩
      refine ⟨enough,length,?_,rfl,some_bytes,small,by omega⟩
      rw [List.take_take,min_eq_left (by omega)]
      exact read
    · rintro ⟨enough,length,read,rfl,some_bytes,small,_⟩
      rw [List.take_take,min_eq_left (by omega)] at read
      exact ⟨length,read,rfl,some_bytes,small,enough⟩

theorem waits (whole : (framer max).Frame f) (starts : part <+: f) (short : part.length < f.length) :
    next_frame_len max part = .ok none := by
  obtain ⟨length,read,total,some_bytes,small,_⟩ := next_frame_len_eq_some.mp whole
  obtain ⟨more,rfl⟩ := starts
  unfold next_frame_len
  split_ifs with unread
  · rfl
  · rw [List.take_append_of_le_length (not_lt.mp unread)] at read
    rw [← read]
    simp only [except_bind_eq_ok,except_refuse_eq_ok]
    refine ⟨⟨⟩,some_bytes,⟨⟩,not_lt.mpr small,?_⟩
    rw [if_pos (by omega)]
    rfl

theorem frame_framed (some_bytes : f ≠ []) (small : f.length ≤ max) (fits : f.length < 4294967296) :
    (framer max).Frame (framed f) := by
  have length : (framed f).length = LENGTH_BYTES + f.length := by simp [framed]
  refine next_frame_len_eq_some.mpr ⟨f.length,?_,length,?_,small,le_rfl⟩
  · rw [framed,List.take_left' (length_to_le_bytes ..),from_to_le_bytes fits]
  · simpa using some_bytes

/-- The loop takes off the frames the buffer is cut into. -/
theorem read_frames_cuts {rounds : Nat} (enough : buffer.length ≤ rounds) (cuts : (framer max).Cuts buffer frames rest) :
    read_frames max rounds buffer = .ok (frames.map (List.drop LENGTH_BYTES),rest) := by
  induction rounds generalizing buffer frames with
  | zero =>
    have empty : buffer = [] := List.length_eq_zero_iff.mp (Nat.le_zero.mp enough)
    subst empty
    obtain ⟨rfl,rfl⟩ := (Framer.cuts_of_waits (framer max).empty).mp cuts
    rfl
  | succ rounds ih =>
    rw [read_frames]
    cases frames with
    | nil =>
      have same := cuts.bytes
      rw [List.flatten_nil,List.nil_append] at same
      subst same
      have first : next_frame_len max buffer = .ok none := cuts.waits
      rw [first]
      rfl
    | cons f frames =>
      have head := cuts.framed f List.mem_cons_self
      have bytes := cuts.bytes
      rw [List.flatten_cons,List.append_assoc] at bytes
      subst bytes
      have first : next_frame_len max (f ++ (frames.flatten ++ rest)) = .ok (some f.length) := head.first _
      have positive := List.length_pos_iff.mpr head.ne_nil
      have shorter : (frames.flatten ++ rest).length ≤ rounds := by
        rw [List.length_append] at enough
        omega
      have later := ih shorter ⟨rfl,fun g member => cuts.framed g (List.mem_cons_of_mem _ member),cuts.waits⟩
      rw [first]
      simp only [bind,Except.bind,List.drop_left,List.take_left,later]
      rfl

theorem push_cuts {chunk : List UInt8} (cuts : (framer max).Cuts (buffer ++ chunk) frames rest) :
    (push chunk).run ⟨max,buffer⟩ = .ok (frames.map (List.drop LENGTH_BYTES)) ⟨max,rest⟩ := by
  have read := read_frames_cuts le_rfl cuts
  simp only [push,bind_eq_ok,modify_eq_ok,get_eq_ok,lift_eq_ok,set_eq_ok,pure_eq_ok]
  exact ⟨⟨⟩,_,rfl,_,_,⟨rfl,rfl⟩,_,_,⟨read,rfl⟩,⟨⟩,_,rfl,rfl,rfl⟩

/-- Chunks that feed the framer give its frames. -/
theorem push_all_feeds (feeds : (framer max).Feeds buffer chunks frames rest) :
    (push_all chunks).run ⟨max,buffer⟩ = .ok (frames.map (List.drop LENGTH_BYTES)) ⟨max,rest⟩ := by
  induction feeds with
  | done buffer => rfl
  | push cuts _ ih =>
    simp only [push_all,List.mapM_cons,bind_eq_ok,pure_eq_ok] at ih ⊢
    obtain ⟨others,_,ran,same,rfl⟩ := ih
    refine ⟨_,_,⟨_,_,push_cuts cuts,others,_,ran,rfl,rfl⟩,?_,rfl⟩
    rw [List.flatten_cons,same,List.map_append]

end FrameDecoder

/-! ### Over the wire -/

/-- Encoded messages come through the decoder, whatever the chunks; one that cannot be encoded leaves the output as it was. -/
structure Survives {M : Type} (encode : M → Writer Unit) (decode : List UInt8 → Except WireError M) : Prop where
  round_trip : ∀ (messages : List M) (frames chunks : List (List UInt8)) (max_frame_bytes : Nat),
    List.Forall₂ (fun message frame => ∃ out, (encode message).run out = .ok () (out ++ frame)) messages frames →
    (∀ frame ∈ frames, frame.length ≤ LENGTH_BYTES + max_frame_bytes) → chunks.flatten = frames.flatten →
    ∃ bodies decoder, (FrameDecoder.push_all chunks).run (.new max_frame_bytes) = .ok bodies decoder ∧
      bodies.mapM decode = .ok messages
  unchanged : ∀ message out e out', (encode message).run out = .error e out' → out' = out

section Survives
variable {M : Type} {msg_type : M → UInt8} {write : M → Writer Unit} {read : UInt8 → Reader M}

variable (codes : ∀ message, Codes (write message) (read (msg_type message)) message)
include codes

/-- What an encoded message is: a frame the decoder takes, whose body decodes to the message. -/
theorem encoded_frame {message : M}
    {out bytes : List UInt8} (ran : (frame (msg_type message) (write message)).run out = .ok () (out ++ bytes)) :
    ∃ body, bytes = framed body ∧ body ≠ [] ∧ body.length ≤ MAX_FRAME_BYTES ∧ decode read body = .ok message := by
  rcases frame_run (codes message) (msg_type message) out with ⟨body,small,ran',reads⟩ | ⟨e,failed⟩
  · rw [ran] at ran'
    injection ran' with _ same
    exact ⟨msg_type message :: body,List.append_cancel_left same,List.cons_ne_nil _ _,small,decode_of_codes reads⟩
  · rw [ran] at failed
    cases failed

theorem encoded_frames {messages : List M} {frames : List (List UInt8)} {max_frame_bytes : Nat}
    (encoded : List.Forall₂ (fun message bytes =>
      ∃ out, (frame (msg_type message) (write message)).run out = .ok () (out ++ bytes)) messages frames)
    (small : ∀ f ∈ frames, f.length ≤ LENGTH_BYTES + max_frame_bytes) :
    (∀ f ∈ frames, (FrameDecoder.framer (FrameDecoder.new max_frame_bytes).max_frame_bytes).Frame f) ∧
    (frames.map (List.drop LENGTH_BYTES)).mapM (decode read) = .ok messages := by
  induction encoded with
  | nil => exact ⟨fun _ member => (nomatch member),rfl⟩
  | cons ran _ ih =>
    obtain ⟨out,ran⟩ := ran
    obtain ⟨body,rfl,some_bytes,bound,decoded⟩ := encoded_frame codes ran
    obtain ⟨head,tail⟩ := List.forall_mem_cons.mp small
    obtain ⟨framed_rest,rest⟩ := ih tail
    have length : (framed body).length = LENGTH_BYTES + body.length := by simp [framed]
    have limit : body.length ≤ (FrameDecoder.new max_frame_bytes).max_frame_bytes :=
      le_min (le_max_of_le_left (by omega)) bound
    have fits : body.length < 4294967296 := lt_of_le_of_lt bound (by decide)
    refine ⟨List.forall_mem_cons.mpr ⟨FrameDecoder.frame_framed some_bytes limit fits,framed_rest⟩,?_⟩
    have body_of : (framed body).drop LENGTH_BYTES = body := List.drop_left' (length_to_le_bytes ..)
    rw [List.map_cons,body_of,List.mapM_cons,decoded]
    simp only [rest]
    rfl

theorem survives :
    Survives (fun message => frame (msg_type message) (write message)) (decode read) where
  round_trip := by
    intro messages frames chunks max_frame_bytes encoded small same
    obtain ⟨whole,decoded⟩ := encoded_frames codes encoded small
    -- the decoder waits wherever a chunk ends, so the chunks feed it all frames
    have feeds := (Framer.feeds_iff (W := fun _ => True) trivial
      (fun f whole part starts short => iff_of_true (FrameDecoder.waits whole starts short) trivial)
      whole (.inl rfl) same trivial).mpr fun _ _ => trivial
    exact ⟨_,_,FrameDecoder.push_all_feeds feeds,decoded⟩
  unchanged := by
    intro message out e out' failed
    rcases frame_run (codes message) (msg_type message) out with ⟨body,_,ran,_⟩ | ⟨e',failed'⟩
    · rw [ran] at failed
      cases failed
    · rw [failed'] at failed
      cases failed
      rfl

end Survives

theorem messages_survive_the_wire :
    Survives encode_client decode_client ∧ Survives encode_server decode_server :=
  ⟨survives codes_client,survives codes_server⟩

/-- Two messages of a client, whose frames arrive in chunks that end within the length of the second. -/
theorem ping_and_logout_survive_the_wire : ∃ bodies decoder,
    (FrameDecoder.push_all [[9,0,0,0,4,7],[0,0,0,0,0,0,0,6,0],[],[0,0,5,3,0,98,121,101]]).run (.new 64) = .ok bodies decoder ∧
      bodies.mapM decode_client = .ok [.Ping 7,.Logout "bye"] := by
  have ping : (encode_client (.Ping 7)).run [] = .ok () [9,0,0,0,4,7,0,0,0,0,0,0,0] := by decide +kernel
  have logout : (encode_client (.Logout "bye")).run [] = .ok () [6,0,0,0,5,3,0,98,121,101] := by decide +kernel
  refine messages_survive_the_wire.1.round_trip _ [_,_] _ 64 (.cons ⟨[],ping⟩ (.cons ⟨[],logout⟩ .nil)) ?_ rfl
  decide

end Bunting.Bnp
