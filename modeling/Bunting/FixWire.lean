import Bunting.Stateful
import Bunting.Bytes
import Bunting.Framing

/-!
FIX tag-value framing: a bounded decoder that keeps the bytes of an incomplete
frame. The length of a frame stands in its header. The decoder wants all of the
first thirteen bytes at once, so what it yields depends on where the bytes are
split, and exactly there.
-/

namespace Bunting.Simfix
open Stateful Framing Bytes

/-! ### Text -/

/-- One digit more of a number up to `max`. -/
def push_digit (max n : Nat) (digit : Char) : Option Nat :=
  if digit.isDigit then
    let n := 10 * n + (digit.toNat - '0'.toNat)
    if n ≤ max then some n else none
  else none

/-- An unsigned decimal number up to `max`; a plus sign may come first. -/
def parse_unsigned (max : Nat) (text : String) : Option Nat :=
  let digits := match text.toList with
    | '+' :: digits => digits
    | digits => digits
  if digits.isEmpty then none else digits.foldlM (push_digit max) 0

def usize_max : Nat := 18446744073709551615

def checked_add (a b : Nat) : Option Nat := if a + b ≤ usize_max then some (a + b) else none

/-! ### Messages -/

def SOH : UInt8 := 1

def FIXT_11 : String := "FIXT.1.1"

structure Field where
  tag : UInt32
  value : String
  deriving DecidableEq

structure FixMessage where
  begin_string : String
  msg_type : String
  fields : List Field
  deriving DecidableEq

structure WireLimits where
  max_message_bytes : Nat := 65536
  max_field_bytes : Nat := 8192
  max_fields : Nat := 256
  max_buffer_bytes : Nat := 131072
  deriving DecidableEq

inductive WireError
  | BufferFull
  | MessageTooLarge
  | FieldTooLarge
  | TooManyFields
  | InvalidUtf8
  | InvalidField
  | InvalidBeginString
  | InvalidBodyLength
  | InvalidChecksum
  | MissingMsgType
  | MissingRequiredTag (tag : UInt32)
  | DuplicateTag (tag : UInt32)
  | InvalidMessageType
  | InvalidRepeatingGroup (tag : UInt32)
  | ReservedTag (tag : UInt32)
  | DictionaryUnavailable
  | UnknownTag (tag : UInt32)
  deriving DecidableEq

def validate_value (value : String) (limits : WireLimits) : Except WireError Unit := do
  refuse (SOH ∈ as_bytes value ∨ '=' ∈ value.toList) WireError.InvalidField
  refuse ((as_bytes value).length > limits.max_field_bytes) WireError.FieldTooLarge

def append_field (output : List UInt8) (tag : UInt32) (value : String) (limits : WireLimits) :
    Except WireError (List UInt8) := do
  validate_value value limits
  pure (output ++ as_bytes (toString tag.toNat) ++ [61] ++ as_bytes value ++ [SOH])

def checksum (bytes : List UInt8) : UInt8 := bytes.foldl (· + ·) 0

/-- A number below a thousand in three digits. -/
def three_digits (n : Nat) : String :=
  let digits := (Nat.toDigits 10 n)
  String.ofList (List.replicate (3 - digits.length) '0' ++ digits)

namespace FixMessage

def new (msg_type : String) : FixMessage := ⟨FIXT_11,msg_type,[]⟩

def push (tag : UInt32) (value : String) (message : FixMessage) : FixMessage :=
  { message with fields := message.fields ++ [⟨tag,value⟩] }

def value (message : FixMessage) (tag : UInt32) : Option String :=
  (message.fields.find? (·.tag = tag)).map (·.value)

def encode (message : FixMessage) (limits : WireLimits) : Except WireError (List UInt8) := do
  refuse (message.fields.length > limits.max_fields) WireError.TooManyFields
  validate_value message.begin_string limits
  validate_value message.msg_type limits
  let body ← append_field [] 35 message.msg_type limits
  let body ← message.fields.foldlM (fun body field => do
    refuse (field.tag = 8 ∨ field.tag = 9 ∨ field.tag = 10 ∨ field.tag = 35) (WireError.ReservedTag field.tag)
    append_field body field.tag field.value limits) body
  let frame ← append_field [] 8 message.begin_string limits
  let frame ← append_field frame 9 (toString body.length) limits
  let frame := frame ++ body
  let frame ← append_field frame 10 (three_digits (checksum frame).toNat) limits
  refuse (frame.length > limits.max_message_bytes) WireError.MessageTooLarge
  pure frame

end FixMessage

/-! ### Frames -/

def delimiter_after (bytes : List UInt8) (start : Nat) : Option Nat :=
  ((bytes.drop start).findIdx? (· == SOH)).map (start + ·)

/-- The length of the frame whose body length ends at `length_end`, if the frame is all there. -/
def delimited_frame_len (bytes : List UInt8) (limits : WireLimits) (length_start length_end : Nat) :
    Except WireError (Option Nat) := do
  let length_text ← orElse (from_utf8 ((bytes.take length_end).drop length_start)) WireError.InvalidBodyLength
  let body_length ← orElse (parse_unsigned usize_max length_text) WireError.InvalidBodyLength
  let checksum_start ← orElse (checked_add (length_end + 1) body_length) WireError.MessageTooLarge
  let total ← orElse (checked_add checksum_start 7) WireError.MessageTooLarge
  refuse (total > limits.max_message_bytes) WireError.MessageTooLarge
  if bytes.length < total then pure none
  else do
    refuse ((bytes.drop checksum_start).take 3 ≠ as_bytes "10=" ∨ bytes[total - 1]? ≠ some SOH)
      WireError.InvalidBodyLength
    pure (some total)

/-- The length of the first frame. All of the first field has to be there, and then the tag of the second. -/
def complete_frame_len (bytes : List UInt8) (limits : WireLimits) : Except WireError (Option Nat) :=
  if bytes.isEmpty then pure none
  else do
    refuse (¬ as_bytes "8=FIXT.1.1\x01" <+: bytes) WireError.InvalidBeginString
    match delimiter_after bytes 0 with
    | none => pure none
    | some begin_end => do
      let body_length_start := begin_end + 1
      refuse ((bytes.drop body_length_start).take 2 ≠ as_bytes "9=") WireError.InvalidBodyLength
      match delimiter_after bytes body_length_start with
      | none => pure none
      | some length_end => delimited_frame_len bytes limits (body_length_start + 2) length_end

def parse_field (limits : WireLimits) (raw : List UInt8) : Except WireError Field := do
  let equals ← orElse (raw.findIdx? (· == 61)) WireError.InvalidField
  let tag ← orElse (from_utf8 (raw.take equals)) WireError.InvalidUtf8
  let tag ← orElse (parse_unsigned 4294967295 tag) WireError.InvalidField
  let value ← orElse (from_utf8 (raw.drop (equals + 1))) WireError.InvalidUtf8
  validate_value value limits
  pure ⟨UInt32.ofNat tag,value⟩

def parse_frame (frame : List UInt8) (limits : WireLimits) : Except WireError FixMessage := do
  refuse (frame.length < 7) WireError.InvalidChecksum
  let checksum_start := frame.length - 7
  let expected ← orElse (from_utf8 ((frame.drop (checksum_start + 3)).take 3)) WireError.InvalidChecksum
  let expected ← orElse (parse_unsigned 255 expected) WireError.InvalidChecksum
  refuse ((checksum (frame.take checksum_start)).toNat ≠ expected) WireError.InvalidChecksum
  let raws := ((frame.take checksum_start).splitOnP (· == SOH)).filter (fun raw => !raw.isEmpty)
  let parsed ← raws.mapM (parse_field limits)
  refuse (parsed.length > (limits.max_fields + 3) % (usize_max + 1)) WireError.TooManyFields
  let begin_field ← orElse (parsed.head?.filter (·.tag = 8)) WireError.InvalidBeginString
  refuse (begin_field.value ≠ FIXT_11) WireError.InvalidBeginString
  refuse (parsed[1]?.map (·.tag) ≠ some 9) WireError.InvalidBodyLength
  let type_field ← orElse (parsed[2]?.filter (·.tag = 35)) WireError.MissingMsgType
  let fields := parsed.filter (fun field => ¬ (field.tag = 8 ∨ field.tag = 9 ∨ field.tag = 35))
  pure ⟨begin_field.value,type_field.value,fields⟩

/-- A published dictionary, by the messages and the tags it knows. -/
structure Dictionary where
  message_by_msgtype : String → Bool
  field_by_tag : UInt32 → Bool

structure CompetitionDictionary where
  session : Dictionary
  application : Dictionary

def CompetitionDictionary.validate (dictionary : CompetitionDictionary) (message : FixMessage) : Except WireError Unit := do
  refuse (message.begin_string ≠ FIXT_11) WireError.InvalidBeginString
  let standard := dictionary.session.message_by_msgtype message.msg_type ||
    dictionary.application.message_by_msgtype message.msg_type
  let extension := message.msg_type ∈ ["U6","U9","UA","UB","UC"]
  refuse (¬ standard ∧ ¬ extension) WireError.InvalidMessageType
  message.fields.forM fun field =>
    refuse (¬ dictionary.session.field_by_tag field.tag ∧ ¬ dictionary.application.field_by_tag field.tag ∧
      ¬ (10000 ≤ field.tag ∧ field.tag ≤ 10023)) (WireError.UnknownTag field.tag)

/-! ### The decoder -/

structure Decoder where
  limits : WireLimits
  buffer : List UInt8
  dictionary : CompetitionDictionary

namespace Decoder

def try_new (limits : WireLimits) (dictionary : CompetitionDictionary) : Decoder := ⟨limits,[],dictionary⟩

/-- Takes the complete frames off the buffer. Every frame has a byte at least, so as many rounds as bytes are enough. -/
def read_frames : Nat → EStateM WireError Decoder (List FixMessage)
  | 0 => pure []
  | rounds + 1 => do
    let decoder ← get
    match ← complete_frame_len decoder.buffer decoder.limits with
    | none => pure []
    | some frame_len => do
      set { decoder with buffer := decoder.buffer.drop frame_len }
      let message ← parse_frame (decoder.buffer.take frame_len) decoder.limits
      decoder.dictionary.validate message
      let messages ← read_frames rounds
      pure (message :: messages)

/-- Keeps incomplete trailing bytes and returns every complete frame. -/
def push (bytes : List UInt8) : EStateM WireError Decoder (List FixMessage) := do
  let decoder ← get
  refuse (min (decoder.buffer.length + bytes.length) usize_max > decoder.limits.max_buffer_bytes) WireError.BufferFull
  set { decoder with buffer := decoder.buffer ++ bytes }
  read_frames (decoder.buffer.length + bytes.length)

def push_all (chunks : List (List UInt8)) : EStateM WireError Decoder (List FixMessage) := do
  let messages ← chunks.mapM push
  pure messages.flatten

end Decoder

section Lengths
variable {bytes frame part : List UInt8} {limits : WireLimits} {n i : Nat} {found : Option Nat}

/-- The bytes every frame begins with: the first field, and the tag of the second. -/
def header : List UInt8 := [56,61,70,73,88,84,46,49,46,49,1,57,61]

theorem begin_bytes : as_bytes "8=FIXT.1.1\x01" = [56,61,70,73,88,84,46,49,46,49,1] := by decide +kernel
theorem length_tag : as_bytes "9=" = [57,61] := by decide +kernel

/-- All of the header is there, or the frame is refused. -/
theorem header_of_ok (ran : complete_frame_len bytes limits = .ok found) : bytes = [] ∨ header <+: bytes := by
  by_cases empty : bytes = []
  · exact .inl empty
  · have some_bytes : bytes.isEmpty = false := by simpa using empty
    simp only [complete_frame_len,some_bytes,Bool.false_eq_true,if_false,returned,not_not,begin_bytes,length_tag] at ran
    obtain ⟨⟨rest,rfl⟩,ran⟩ := ran
    right
    have first : delimiter_after ([56,61,70,73,88,84,46,49,46,49,1] ++ rest) 0 = some 10 := rfl
    simp only [first,returned,not_not] at ran
    obtain ⟨tag,_⟩ := ran
    refine ⟨rest.drop 2,?_⟩
    have split := List.take_append_drop 2 rest
    have same : rest.take 2 = [57,61] := tag
    rw [same] at split
    rw [← split]
    rfl

/-- After the header the length ends at the next delimiter. -/
theorem complete_frame_len_header (starts : header <+: bytes) :
    complete_frame_len bytes limits =
      match (bytes.drop 13).findIdx? (· == SOH) with
      | none => .ok none
      | some i => delimited_frame_len bytes limits 13 (13 + i) := by
  obtain ⟨rest,rfl⟩ := starts
  have first : delimiter_after (header ++ rest) 0 = some 10 := rfl
  have starts : as_bytes "8=FIXT.1.1\x01" <+: header ++ rest := ⟨[57,61] ++ rest,by rw [begin_bytes]; rfl⟩
  have tag : ((header ++ rest).drop 11).take 2 = as_bytes "9=" := by rw [length_tag]; rfl
  have second : delimiter_after (header ++ rest) 11 = (rest.findIdx? (· == SOH)).map (13 + ·) := by
    have skip : (header ++ rest).drop 11 = [57,61] ++ rest := rfl
    have none : [57,61].findIdx? (· == SOH) = none := by decide
    rw [delimiter_after,skip,List.findIdx?_append,none]
    cases rest.findIdx? (· == SOH) <;> simp [Nat.add_comm]
  have skip : (header ++ rest).drop 13 = rest := rfl
  simp only [complete_frame_len,first,starts,tag,second,skip]
  cases rest.findIdx? (· == SOH) <;> rfl

/-- What the text of a body length, with its end, says of the frame's length. -/
def total_of (digits : List UInt8) (i : Nat) : Option Nat := do
  let text ← from_utf8 digits
  let body_length ← parse_unsigned usize_max text
  let checksum_start ← checked_add (13 + i + 1) body_length
  checked_add checksum_start 7

theorem checked_add_eq_some {a b c : Nat} : checked_add a b = some c ↔ a + b = c ∧ c ≤ usize_max := by
  unfold checked_add
  split_ifs with fits
  · simp only [Option.some.injEq]
    exact ⟨fun same => ⟨same,same ▸ fits⟩,fun ⟨same,_⟩ => same⟩
  · simp only [false_iff,not_and]
    rintro rfl
    exact fits

theorem total_of_lt {digits : List UInt8} (total : total_of digits i = some n) : i + 21 ≤ n := by
  simp only [total_of,Option.bind_eq_bind,Option.bind_eq_some_iff,checked_add_eq_some] at total
  obtain ⟨_,_,_,_,_,_,_⟩ := total
  omega

/-- The trailer where a frame of `n` bytes has it. -/
def Ended (bytes : List UInt8) (n : Nat) : Prop := (bytes.drop (n - 7)).take 3 = as_bytes "10=" ∧ bytes[n - 1]? = some SOH

theorem delimited_frame_len_ok :
    delimited_frame_len bytes limits 13 (13 + i) = .ok found ↔
      ∃ n, total_of ((bytes.drop 13).take i) i = some n ∧ n ≤ limits.max_message_bytes ∧
        (bytes.length < n ∧ found = none ∨ n ≤ bytes.length ∧ Ended bytes n ∧ found = some n) := by
  have text : (bytes.take (13 + i)).drop 13 = (bytes.drop 13).take i := by rw [List.drop_take,Nat.add_sub_cancel_left]
  simp only [delimited_frame_len,text,except_bind_eq_ok,except_orElse_eq_ok,except_refuse_eq_ok,total_of,
    Option.bind_eq_bind,Option.bind_eq_some_iff,not_lt,gt_iff_lt]
  constructor
  · rintro ⟨text,utf8,length,digits,start,before,n,total,_,small,ran⟩
    refine ⟨n,⟨text,utf8,length,digits,start,before,total⟩,small,?_⟩
    obtain ⟨rfl,_⟩ := checked_add_eq_some.mp total
    split_ifs at ran with short
    · cases ran
      exact .inl ⟨short,rfl⟩
    · simp only [returned,not_or,not_not] at ran
      obtain ⟨ended,ran⟩ := ran
      cases ran
      exact .inr ⟨not_lt.mp short,ended,rfl⟩
  · rintro ⟨n,⟨text,utf8,length,digits,start,before,total⟩,small,ran⟩
    refine ⟨text,utf8,length,digits,start,before,n,total,⟨⟩,small,?_⟩
    obtain ⟨rfl,_⟩ := checked_add_eq_some.mp total
    rcases ran with ⟨short,rfl⟩ | ⟨enough,ended,rfl⟩
    · rw [if_pos short]
      rfl
    · rw [if_neg (not_lt.mpr enough)]
      simp only [except_bind_eq_ok,except_refuse_eq_ok,not_or,not_not]
      exact ⟨⟨⟩,ended,rfl⟩

theorem complete_frame_len_eq_some :
    complete_frame_len bytes limits = .ok (some n) ↔
      header <+: bytes ∧ n ≤ limits.max_message_bytes ∧ n ≤ bytes.length ∧ Ended bytes n ∧
      ∃ i, (bytes.drop 13).findIdx? (· == SOH) = some i ∧ total_of ((bytes.drop 13).take i) i = some n := by
  constructor
  · intro ran
    have starts : header <+: bytes := by
      refine (header_of_ok ran).resolve_left ?_
      rintro rfl
      cases ran
    rw [complete_frame_len_header starts] at ran
    split at ran
    · cases ran
    · next i delimited =>
      obtain ⟨n',total,small,⟨_,⟨⟩⟩ | ⟨enough,ended,same⟩⟩ := delimited_frame_len_ok.mp ran
      cases same
      exact ⟨starts,small,enough,ended,i,delimited,total⟩
  · rintro ⟨starts,small,enough,ended,i,delimited,total⟩
    rw [complete_frame_len_header starts,delimited]
    exact delimited_frame_len_ok.mpr ⟨n,total,small,.inr ⟨enough,ended,rfl⟩⟩

/-- The length of the body ends at the same place in a part that has it. -/
theorem delimiter_take (n : Nat) : ((bytes.take n).drop 13).findIdx? (· == SOH) = some i ↔
    (bytes.drop 13).findIdx? (· == SOH) = some i ∧ 13 + i < n := by
  rw [List.drop_take,List.findIdx?_take,Option.bind_eq_some_iff]
  constructor
  · rintro ⟨j,delimited,inside⟩
    obtain ⟨rfl,inside⟩ : j = i ∧ j < n - 13 := by simpa using inside
    exact ⟨delimited,by omega⟩
  · rintro ⟨delimited,inside⟩
    exact ⟨i,delimited,by simp; omega⟩

theorem digits_take (enough : 13 + i ≤ n) : ((bytes.take n).drop 13).take i = (bytes.drop 13).take i := by
  rw [List.drop_take,List.take_take,min_eq_left (by omega)]

theorem ended_take (enough : 7 ≤ n) : Ended (bytes.take n) n ↔ Ended bytes n := by
  unfold Ended
  rw [List.drop_take,List.take_take,min_eq_left (by omega),List.getElem?_take_of_lt (by omega)]

end Lengths

/-- Frames of FIX, under the limits of a decoder. -/
def framer (limits : WireLimits) : Framer UInt8 WireError where
  first bytes := complete_frame_len bytes limits
  empty := rfl
  reads bytes n := by
    have thirteen : header.length = 13 := rfl
    simp only [complete_frame_len_eq_some,delimiter_take,List.prefix_take_iff,List.length_take]
    constructor
    · rintro ⟨starts,small,enough,ended,i,delimited,total⟩
      have long := total_of_lt total
      refine ⟨enough,⟨starts,by omega⟩,small,by omega,(ended_take (by omega)).mpr ended,i,⟨delimited,by omega⟩,?_⟩
      rw [digits_take (by omega)]
      exact total
    · rintro ⟨enough,⟨starts,_⟩,small,_,ended,i,⟨delimited,_⟩,total⟩
      have long := total_of_lt total
      refine ⟨starts,small,enough,(ended_take (by omega)).mp ended,i,delimited,?_⟩
      rw [digits_take (by omega)] at total
      exact total

/-- With a part of a frame the decoder waits if it has nothing or all of the header. -/
theorem waits_iff {limits : WireLimits} {frame part : List UInt8} (framed : (framer limits).Frame frame)
    (starts : part <+: frame) (short : part.length < frame.length) :
    complete_frame_len part limits = .ok none ↔ part.length = 0 ∨ 13 ≤ part.length := by
  obtain ⟨whole,small,_,_,i,delimited,total⟩ := complete_frame_len_eq_some.mp framed
  have prefixed : part = frame.take part.length := List.prefix_iff_eq_take.mp starts
  constructor
  · intro waits
    rcases header_of_ok waits with rfl | begun
    · exact .inl rfl
    · exact .inr begun.length_le
  · rintro (none_yet | enough)
    · rw [List.length_eq_zero_iff.mp none_yet]
      rfl
    · rw [complete_frame_len_header (List.prefix_of_prefix_length_le whole starts enough)]
      split
      · rfl
      · next j delimited' =>
        rw [prefixed,delimiter_take,delimited] at delimited'
        obtain ⟨⟨⟩,inside⟩ := delimited'
        refine delimited_frame_len_ok.mpr ⟨frame.length,?_,small,.inl ⟨short,rfl⟩⟩
        rw [prefixed,digits_take inside.le]
        exact total

/-! ### What the decoder yields -/

namespace Decoder
variable {decoder decoder' : Decoder} {messages : List FixMessage} {frames chunks : List (List UInt8)} {rounds : Nat}

def read (decoder : Decoder) (frame : List UInt8) : Except WireError FixMessage := do
  let message ← parse_frame frame decoder.limits
  decoder.dictionary.validate message
  pure message

/-- A decoder cuts its buffer into frames, reads them and keeps the rest. -/
def Reads (decoder : Decoder) (messages : List FixMessage) (decoder' : Decoder) : Prop :=
  ∃ frames rest, (framer decoder.limits).Cuts decoder.buffer frames rest ∧ frames.mapM decoder.read = .ok messages ∧
    decoder' = { decoder with buffer := rest }

theorem reads_of_waits (waits : complete_frame_len decoder.buffer decoder.limits = .ok none) :
    decoder.Reads messages decoder' ↔ [] = messages ∧ decoder = decoder' := by
  simp only [Reads,Framer.cuts_of_waits (F := framer decoder.limits) waits]
  constructor
  · rintro ⟨_,_,⟨rfl,rfl⟩,read,rfl⟩
    exact ⟨except_pure_eq_ok.mp read,rfl⟩
  · rintro ⟨rfl,rfl⟩
    exact ⟨[],_,⟨rfl,rfl⟩,rfl,rfl⟩

theorem reads_of_first {n : Nat} (first : complete_frame_len decoder.buffer decoder.limits = .ok (some n)) :
    decoder.Reads messages decoder' ↔
      ∃ message later, decoder.read (decoder.buffer.take n) = .ok message ∧
        Reads { decoder with buffer := decoder.buffer.drop n } later decoder' ∧ message :: later = messages := by
  simp only [Reads,Framer.cuts_of_first (F := framer decoder.limits) first]
  constructor
  · rintro ⟨_,rest,⟨frames,rfl,cuts⟩,read,rfl⟩
    simp only [List.mapM_cons,returned] at read
    obtain ⟨message,head,later,tail,rfl⟩ := read
    exact ⟨message,later,head,⟨frames,rest,cuts,tail,rfl⟩,rfl⟩
  · rintro ⟨message,later,head,⟨frames,rest,cuts,tail,rfl⟩,rfl⟩
    refine ⟨_,rest,⟨frames,rfl,cuts⟩,?_,rfl⟩
    simp only [List.mapM_cons,except_bind_eq_ok,except_pure_eq_ok]
    exact ⟨message,head,later,tail,rfl⟩

theorem read_eq_ok {frame : List UInt8} {message : FixMessage} :
    decoder.read frame = .ok message ↔
      parse_frame frame decoder.limits = .ok message ∧ decoder.dictionary.validate message = .ok () := by
  simp only [read,returned,exists_eq_right_right]

/-- One round of the loop: the decoder waits, or takes a frame off. -/
theorem read_frames_succ :
    (read_frames (rounds + 1)).run decoder = .ok messages decoder' ↔
      complete_frame_len decoder.buffer decoder.limits = .ok none ∧ [] = messages ∧ decoder = decoder' ∨
      ∃ n message later, complete_frame_len decoder.buffer decoder.limits = .ok (some n) ∧
        decoder.read (decoder.buffer.take n) = .ok message ∧
        (read_frames rounds).run { decoder with buffer := decoder.buffer.drop n } = .ok later decoder' ∧
        message :: later = messages := by
  simp only [read_frames,read_eq_ok,returned]
  constructor
  · rintro ⟨found,first,ran⟩
    cases found with
    | none => exact .inl ⟨first,pure_eq_ok.mp ran⟩
    | some n =>
      simp only [returned] at ran
      obtain ⟨message,parsed,valid,later,_,ran,rfl,rfl⟩ := ran
      exact .inr ⟨n,message,later,first,⟨parsed,valid⟩,ran,rfl⟩
  · rintro (⟨first,same⟩ | ⟨n,message,later,first,⟨parsed,valid⟩,ran,same⟩)
    · exact ⟨none,first,pure_eq_ok.mpr same⟩
    · refine ⟨some n,first,?_⟩
      simp only [returned]
      exact ⟨message,parsed,valid,later,_,ran,same,rfl⟩

/-- The loop reads the frames the buffer is cut into. -/
theorem read_frames_ok (enough : decoder.buffer.length ≤ rounds) :
    (read_frames rounds).run decoder = .ok messages decoder' ↔ decoder.Reads messages decoder' := by
  induction rounds generalizing decoder messages with
  | zero =>
    have empty : decoder.buffer = [] := List.length_eq_zero_iff.mp (Nat.le_zero.mp enough)
    rw [reads_of_waits (by rw [empty]; rfl),read_frames,pure_eq_ok]
  | succ rounds ih =>
    rw [read_frames_succ]
    cases first : complete_frame_len decoder.buffer decoder.limits with
    | error e =>
      have stuck : (framer decoder.limits).first decoder.buffer = .error e := first
      constructor
      · rintro (⟨⟨⟩,_⟩ | ⟨_,_,_,⟨⟩,_⟩)
      · rintro ⟨_,_,cuts,_⟩
        exact absurd cuts (Framer.not_cuts_of_error stuck)
    | ok found =>
      cases found with
      | none =>
        rw [reads_of_waits first]
        constructor
        · rintro (⟨_,same⟩ | ⟨_,_,_,⟨⟩,_⟩)
          exact same
        · exact fun same => .inl ⟨rfl,same⟩
      | some n =>
        obtain ⟨bound,framed⟩ := Framer.frame_of_first (F := framer decoder.limits) first
        have shorter : (decoder.buffer.drop n).length ≤ rounds := by
          have some_bytes : n ≠ 0 := by
            rintro rfl
            exact framed.ne_nil rfl
          rw [List.length_drop]
          omega
        rw [reads_of_first first]
        have rest (later : List FixMessage) :
            (read_frames rounds).run { decoder with buffer := decoder.buffer.drop n } = .ok later decoder' ↔
              Reads { decoder with buffer := decoder.buffer.drop n } later decoder' := ih shorter
        constructor
        · rintro (⟨⟨⟩,_⟩ | ⟨_,message,later,⟨⟩,read,ran,same⟩)
          exact ⟨message,later,read,(rest later).mp ran,same⟩
        · rintro ⟨message,later,read,reads,same⟩
          exact .inr ⟨n,message,later,rfl,read,(rest later).mpr reads,same⟩

/-- A push reads the frames of what was kept and what came, unless that is more than the decoder may hold. -/
theorem push_ok {bytes : List UInt8} :
    (push bytes).run decoder = .ok messages decoder' ↔
      min (decoder.buffer.length + bytes.length) usize_max ≤ decoder.limits.max_buffer_bytes ∧
      Reads { decoder with buffer := decoder.buffer ++ bytes } messages decoder' := by
  have rounds : ({ decoder with buffer := decoder.buffer ++ bytes } : Decoder).buffer.length ≤
      decoder.buffer.length + bytes.length := (List.length_append ..).le
  rw [push,← read_frames_ok rounds]
  simp only [returned,not_lt,gt_iff_lt]

theorem push_all_cons {chunk : List UInt8} :
    (push_all (chunk :: chunks)).run decoder = .ok messages decoder' ↔
      ∃ first middle later, (push chunk).run decoder = .ok first middle ∧
        (push_all chunks).run middle = .ok later decoder' ∧ first ++ later = messages := by
  simp only [push_all,List.mapM_cons,returned]
  constructor
  · rintro ⟨_,_,⟨first,middle,ran,others,_,ran',rfl,rfl⟩,same,rfl⟩
    exact ⟨first,middle,others.flatten,ran,⟨others,_,ran',rfl,rfl⟩,same⟩
  · rintro ⟨first,middle,_,ran,⟨others,_,ran',rfl,rfl⟩,same⟩
    exact ⟨_,_,⟨first,middle,ran,others,_,ran',rfl,rfl⟩,same,rfl⟩

/-- Chunks in a row are read as they feed the framer, where all of them together are not too much. -/
theorem push_all_ok
    (room : min (decoder.buffer.length + chunks.flatten.length) usize_max ≤ decoder.limits.max_buffer_bytes) :
    (push_all chunks).run decoder = .ok messages decoder' ↔
      ∃ frames rest, (framer decoder.limits).Feeds decoder.buffer chunks frames rest ∧
        frames.mapM decoder.read = .ok messages ∧ decoder' = { decoder with buffer := rest } := by
  induction chunks generalizing decoder messages with
  | nil =>
    simp only [push_all,List.mapM_nil,bind_eq_ok,pure_eq_ok]
    constructor
    · rintro ⟨_,_,⟨rfl,rfl⟩,rfl,rfl⟩
      exact ⟨[],decoder.buffer,.done _,rfl,rfl⟩
    · rintro ⟨_,_,feeds,read,rfl⟩
      cases feeds
      cases read
      exact ⟨[],decoder,⟨rfl,rfl⟩,rfl,rfl⟩
  | cons chunk chunks ih =>
    rw [List.flatten_cons,List.length_append] at room
    have now : min (decoder.buffer.length + chunk.length) usize_max ≤ decoder.limits.max_buffer_bytes := by omega
    rw [push_all_cons]
    -- what is kept of a chunk is no more than what was there, so the room holds for the chunks that follow
    have next {frames : List (List UInt8)} {rest : List UInt8}
        (cuts : (framer decoder.limits).Cuts (decoder.buffer ++ chunk) frames rest) (later : List FixMessage) :
        (push_all chunks).run { decoder with buffer := rest } = .ok later decoder' ↔
          ∃ others left, (framer decoder.limits).Feeds rest chunks others left ∧
            others.mapM decoder.read = .ok later ∧ decoder' = { decoder with buffer := left } := by
      have bytes := congrArg List.length cuts.bytes
      rw [List.length_append,List.length_append] at bytes
      have left : min (rest.length + chunks.flatten.length) usize_max ≤ decoder.limits.max_buffer_bytes := by omega
      exact @ih { decoder with buffer := rest } later left
    constructor
    · rintro ⟨first,middle,later,ran,ran',rfl⟩
      obtain ⟨_,frames,rest,cuts,read,rfl⟩ := push_ok.mp ran
      obtain ⟨others,left,feeds,read',rfl⟩ := (next cuts later).mp ran'
      refine ⟨frames ++ others,left,.push cuts feeds,?_,rfl⟩
      simp only [List.mapM_append,except_bind_eq_ok,except_pure_eq_ok]
      exact ⟨first,read,later,read',rfl⟩
    · rintro ⟨_,left,feeds,read,rfl⟩
      cases feeds with
      | @push _ _ rest _ _ frames others cuts feeds =>
        simp only [List.mapM_append,returned] at read
        obtain ⟨first,read,later,read',rfl⟩ := read
        refine ⟨first,{ decoder with buffer := rest },later,?_,?_,rfl⟩
        · exact push_ok.mpr ⟨now,frames,rest,cuts,read,rfl⟩
        · exact (next cuts later).mpr ⟨others,left,feeds,read',rfl⟩

end Decoder

/-- Frames that the decoder takes in one piece come out of chunks of them as well, exactly if no chunk ends in the first
    twelve bytes of a frame. -/
theorem chunks_yield_the_messages_iff (limits : WireLimits) (dictionary : CompetitionDictionary)
    (frames chunks : List (List UInt8)) (messages : List FixMessage) (decoder : Decoder)
    (framed : ∀ frame ∈ frames, complete_frame_len frame limits = .ok (some frame.length))
    (accepted : (Decoder.push frames.flatten).run (.try_new limits dictionary) = .ok messages decoder)
    (same : chunks.flatten = frames.flatten) :
    (∃ decoder', (Decoder.push_all chunks).run (.try_new limits dictionary) = .ok messages decoder') ↔
      ∀ taken ∈ chunks.inits, Framer.inside frames taken.flatten.length = 0 ∨
        13 ≤ Framer.inside frames taken.flatten.length := by
  have whole : ∀ frame ∈ frames, (framer limits).Frame frame := framed
  obtain ⟨room,_,_,cuts,read,_⟩ := Decoder.push_ok.mp accepted
  rw [(cuts.whole whole).1] at read
  have feeds := Framer.feeds_iff (F := framer limits) (W := fun n => n = 0 ∨ 13 ≤ n) (.inl rfl)
    (fun frame framed part => waits_iff framed) whole (.inl rfl) same (.inl (Framer.inside_zero frames))
  simp only [List.length_nil,Nat.zero_add] at feeds
  rw [← feeds]
  have together : min ((Decoder.try_new limits dictionary).buffer.length + chunks.flatten.length) usize_max ≤
      (Decoder.try_new limits dictionary).limits.max_buffer_bytes := by rwa [same]
  constructor
  · rintro ⟨decoder',ran⟩
    obtain ⟨frames',rest,fed,_⟩ := (Decoder.push_all_ok together).mp ran
    have cuts' : (framer limits).Cuts frames.flatten frames' rest := same ▸ fed.cuts rfl
    obtain ⟨rfl,rfl⟩ := cuts'.whole whole
    exact fed
  · intro fed
    exact ⟨_,(Decoder.push_all_ok together).mpr ⟨frames,[],fed,read,rfl⟩⟩

def sample_dictionary : CompetitionDictionary :=
  ⟨⟨fun msg_type => msg_type = "0",fun tag => tag = 34⟩,⟨fun _ => false,fun _ => false⟩⟩

def sample_heartbeat : FixMessage := (FixMessage.new "0").push 34 "1"

def sample_frame : List UInt8 := (sample_heartbeat.encode {}).toOption.getD []

theorem chunks_yield_the_messages_of_a_heartbeat :
    ∃ decoder', (Decoder.push_all [sample_frame.take 13,sample_frame.drop 13]).run (.try_new {} sample_dictionary) =
      .ok [sample_heartbeat] decoder' := by
  have accepted : (Decoder.push [sample_frame].flatten).run (.try_new {} sample_dictionary) =
      .ok [sample_heartbeat] (.try_new {} sample_dictionary) := by rfl
  refine (chunks_yield_the_messages_iff {} sample_dictionary [sample_frame] _ _ _ ?_ accepted ?_).mpr ?_
  · decide +kernel
  · decide +kernel
  · decide +kernel

/-- A heartbeat is refused when its first byte comes alone. -/
theorem heartbeat_in_two_chunks_is_refused :
    (Decoder.push sample_frame).run (.try_new {} sample_dictionary) =
      .ok [sample_heartbeat] (.try_new {} sample_dictionary) ∧
    [sample_frame.take 1,sample_frame.drop 1].flatten = sample_frame ∧
    (Decoder.push_all [sample_frame.take 1,sample_frame.drop 1]).run (.try_new {} sample_dictionary) =
      .error .InvalidBeginString { Decoder.try_new {} sample_dictionary with buffer := [56] } := by
  exact ⟨by rfl,by decide +kernel,by rfl⟩

end Bunting.Simfix
