import Bunting.FixWire

/-!
What FIX writes it reads back. An encoded message is its fields in a row, each
closed by a delimiter that no value contains. Such a frame ends where its header
says under the limits of any decoder, and if a decoder parses it at all the
message is the one that was written.
-/

namespace Bunting.Simfix
open Stateful Framing Bytes

section Numbers
variable {max n : Nat}

theorem push_digit_eq_some {sofar : Nat} {digit : Char} :
    push_digit max sofar digit = some n ↔
      digit.isDigit = true ∧ 10 * sofar + (digit.toNat - '0'.toNat) = n ∧ n ≤ max := by
  simp only [push_digit]
  constructor
  · intro pushed
    split_ifs at pushed with ten fits
    obtain rfl := Option.some.inj pushed
    exact ⟨ten,rfl,fits⟩
  · rintro ⟨ten,rfl,fits⟩
    rw [if_pos ten,if_pos fits]

theorem push_digits {digits : List Char} {sofar : Nat} (ran : digits.foldlM (push_digit max) sofar = some n) :
    n = Nat.ofDigitChars 10 digits sofar := by
  induction digits generalizing sofar with
  | nil => exact (Option.some.inj ran).symm
  | cons digit digits ih =>
    rw [List.foldlM_cons,Option.bind_eq_bind,Option.bind_eq_some_iff] at ran
    obtain ⟨next,pushed,ran⟩ := ran
    obtain ⟨_,rfl,_⟩ := push_digit_eq_some.mp pushed
    rw [Nat.ofDigitChars_cons]
    exact ih ran

/-- A number has digits only, so no sign is stripped. -/
theorem parse_unsigned_toString (max n : Nat) :
    parse_unsigned max (toString n) = (Nat.toDigits 10 n).foldlM (push_digit max) 0 := by
  have digits : (toString n).toList = Nat.toDigits 10 n := by
    rw [Nat.toString_eq_ofList_toDigits,String.toList_ofList]
  have some_digits := Nat.toDigits_ne_nil (n := n) (b := 10)
  have all (digit : Char) (member : digit ∈ Nat.toDigits 10 n) := Nat.isDigit_of_mem_toDigits (by decide) (by decide) member
  rw [parse_unsigned,digits]
  cases cut : Nat.toDigits 10 n with
  | nil => exact absurd cut some_digits
  | cons digit digits =>
    have not_sign : digit ≠ '+' := by
      rintro rfl
      exact absurd (all '+' (by rw [cut]; exact List.mem_cons_self)) (by decide)
    split
    · next same => exact absurd (List.cons.inj same).1 not_sign
    · rfl

/-- A number that is written and read back is the same, if it is read at all. -/
theorem parse_unsigned_eq {k : Nat} (parsed : parse_unsigned max (toString n) = some k) : k = n := by
  rw [parse_unsigned_toString] at parsed
  rw [push_digits parsed,Nat.ofDigitChars_ten_toDigits]

end Numbers

/-! ### Fields in a row -/

/-- The bytes of a field without its delimiter. -/
def raw (field : Field) : List UInt8 := as_bytes (toString field.tag.toNat) ++ 61 :: as_bytes field.value

/-- The bytes of fields in a row. -/
def row (fields : List Field) : List UInt8 := fields.flatMap fun field => raw field ++ [SOH]

@[simp] theorem row_nil : row [] = [] := rfl

@[simp] theorem row_cons (field : Field) (fields : List Field) : row (field :: fields) = raw field ++ SOH :: row fields := by
  rw [row,List.flatMap_cons,List.append_assoc]
  rfl

/-- A field that can stand in a row: its value has no delimiter. -/
def Clean (field : Field) : Prop := SOH ∉ as_bytes field.value

section Rows
variable {field : Field} {fields : List Field} {limits : WireLimits} {output output' : List UInt8} {value : String}

theorem validate_value_ok (valid : validate_value value limits = .ok ()) : SOH ∉ as_bytes value := by
  simp only [validate_value,returned,not_or] at valid
  obtain ⟨⟨clean,_⟩,_⟩ := valid
  exact clean

theorem append_field_ok {tag : UInt32} (ran : append_field output tag value limits = .ok output') :
    output' = output ++ row [⟨tag,value⟩] ∧ Clean ⟨tag,value⟩ := by
  simp only [append_field,returned] at ran
  obtain ⟨valid,rfl⟩ := ran
  exact ⟨by simp [raw],validate_value_ok valid⟩

theorem clean_number (tag : UInt32) (n : Nat) : Clean ⟨tag,toString n⟩ := fun member => by
  have digit := digit_of_mem_bytes member
  exact absurd digit.1 (by decide)

theorem clean_raw (clean : Clean field) : ∀ byte ∈ raw field, (byte == SOH) = false := by
  intro byte member
  rw [beq_eq_false_iff_ne]
  rintro rfl
  rcases List.mem_append.mp member with tag | value
  · exact absurd (digit_of_mem_bytes tag).1 (by decide)
  · rcases List.mem_cons.mp value with same | value
    · exact absurd same (by decide)
    · exact clean value

theorem split_row (clean : ∀ field ∈ fields, Clean field) :
    ((row fields).splitOnP (· == SOH)).filter (fun raw => !raw.isEmpty) = fields.map raw := by
  induction fields with
  | nil => rfl
  | cons field fields ih =>
    obtain ⟨first,clean⟩ := List.forall_mem_cons.mp clean
    have some_bytes : (!(raw field).isEmpty) = true := by simp [raw]
    rw [row_cons,List.splitOnP_append_cons_of_forall_mem (clean_raw first) SOH (by rfl),List.filter_cons,if_pos some_bytes,
      ih clean,List.map_cons]

theorem parse_field_raw {read : Field} (ran : parse_field limits (raw field) = .ok read) : read = field := by
  have sign : (raw field).findIdx? (· == 61) = some (as_bytes (toString field.tag.toNat)).length := by
    have none_before : (as_bytes (toString field.tag.toNat)).findIdx? (· == 61) = none := by
      rw [List.findIdx?_eq_none_iff]
      intro byte member
      rw [beq_eq_false_iff_ne]
      rintro rfl
      exact absurd (digit_of_mem_bytes member).2 (by decide)
    rw [raw,List.findIdx?_append,none_before]
    simp [List.findIdx?_cons]
  simp only [parse_field,sign,returned,Option.some.injEq] at ran
  obtain ⟨tag,tag_text,number,parsed,value,value_text,_,rfl⟩ := ran
  have before : (raw field).take (as_bytes (toString field.tag.toNat)).length = as_bytes (toString field.tag.toNat) :=
    List.take_left
  have after : (raw field).drop ((as_bytes (toString field.tag.toNat)).length + 1) = as_bytes field.value := by
    rw [raw,← List.drop_drop,List.drop_left]
    rfl
  rw [before,from_utf8_as_bytes,Option.some.injEq] at tag_text
  rw [after,from_utf8_as_bytes,Option.some.injEq] at value_text
  subst tag_text value_text
  rw [parse_unsigned_eq parsed,UInt32.ofNat_toNat]

theorem parse_fields {parsed : List Field} (ran : (fields.map raw).mapM (parse_field limits) = .ok parsed) :
    parsed = fields := by
  induction fields generalizing parsed with
  | nil => exact (except_pure_eq_ok.mp ran).symm
  | cons field fields ih =>
    simp only [List.map_cons,List.mapM_cons,returned] at ran
    obtain ⟨first,head,others,tail,rfl⟩ := ran
    rw [parse_field_raw head,ih tail]

end Rows

/-! ### An encoded message -/

section Frames
variable {message read : FixMessage} {limits : WireLimits} {frame : List UInt8}

/-- The type and the fields of a message, whose length the header tells. -/
def body (message : FixMessage) : List Field := ⟨35,message.msg_type⟩ :: message.fields

/-- All of a message but its checksum. -/
def layout (message : FixMessage) : List Field :=
  ⟨8,message.begin_string⟩ :: ⟨9,toString (row (body message)).length⟩ :: body message

def trailer (message : FixMessage) : List UInt8 := row [⟨10,three_digits (checksum (row (layout message))).toNat⟩]

/-- A field that the message itself may carry. -/
def Free (field : Field) : Prop := ¬ (field.tag = 8 ∨ field.tag = 9 ∨ field.tag = 10 ∨ field.tag = 35)

theorem append_fields_ok {fields : List Field} {output output' : List UInt8} (ran : fields.foldlM (fun body field => do
      refuse (field.tag = 8 ∨ field.tag = 9 ∨ field.tag = 10 ∨ field.tag = 35) (WireError.ReservedTag field.tag)
      append_field body field.tag field.value limits) output = .ok output') :
    output' = output ++ row fields ∧ ∀ field ∈ fields, Clean field ∧ Free field := by
  induction fields generalizing output with
  | nil =>
    obtain rfl := except_pure_eq_ok.mp ran
    exact ⟨(List.append_nil _).symm,fun _ member => (nomatch member)⟩
  | cons field fields ih =>
    simp only [List.foldlM_cons,returned] at ran
    obtain ⟨next,⟨free,appended⟩,ran⟩ := ran
    obtain ⟨rfl,clean⟩ := append_field_ok appended
    obtain ⟨rfl,others⟩ := ih ran
    exact ⟨by simp,List.forall_mem_cons.mpr ⟨⟨clean,free⟩,others⟩⟩

/-- An encoded message is its layout with the checksum behind it. -/
theorem encode_ok (ran : message.encode limits = .ok frame) :
    frame = row (layout message) ++ trailer message ∧ (∀ field ∈ layout message, Clean field) ∧
      ∀ field ∈ message.fields, Free field := by
  simp only [FixMessage.encode,returned] at ran
  obtain ⟨_,_,_,_,typed,_,appended,_,first,_,second,_,last,_,rfl⟩ := ran
  obtain ⟨rfl,clean_type⟩ := append_field_ok typed
  obtain ⟨rfl,clean⟩ := append_fields_ok appended
  obtain ⟨rfl,clean_begin⟩ := append_field_ok first
  obtain ⟨rfl,clean_length⟩ := append_field_ok second
  obtain ⟨rfl,_⟩ := append_field_ok last
  refine ⟨?_,?_,fun field member => (clean field member).2⟩
  · simp [layout,trailer,body]
  · simp only [layout,body,List.forall_mem_cons]
    exact ⟨clean_begin,clean_number 9 _,clean_type,fun field member => (clean field member).1⟩

theorem three_digits_length : ∀ n < 256, (as_bytes (three_digits n)).length = 3 := by decide +kernel

theorem trailer_length (message : FixMessage) : (trailer message).length = 7 := by
  have digits := three_digits_length _ (checksum (row (layout message))).toNat_lt
  have tag : (as_bytes (toString (10 : UInt32).toNat)).length = 2 := by decide +kernel
  rw [trailer,row_cons,row_nil,raw,List.length_append,List.length_append,tag,List.length_cons,digits]
  rfl

theorem parse_encoded (encoded : message.encode limits = .ok frame) {limits' : WireLimits}
    (ran : parse_frame frame limits' = .ok read) : read = message := by
  obtain ⟨rfl,clean,free⟩ := encode_ok encoded
  have start : (row (layout message) ++ trailer message).length - 7 = (row (layout message)).length := by
    rw [List.length_append,trailer_length,Nat.add_sub_cancel]
  simp only [parse_frame,start,List.take_left,split_row clean,returned] at ran
  obtain ⟨_,_,_,_,_,_,parsed,fields,_,begin_field,first,_,_,type_field,third,rfl⟩ := ran
  obtain rfl := parse_fields fields
  obtain rfl : ⟨8,message.begin_string⟩ = begin_field := Option.some.inj first
  obtain rfl : ⟨35,message.msg_type⟩ = type_field := Option.some.inj third
  have others : message.fields.filter (fun field => ¬ (field.tag = 8 ∨ field.tag = 9 ∨ field.tag = 35)) = message.fields := by
    refine List.filter_eq_self.mpr fun field member => ?_
    have allowed := free field member
    simp only [Free,not_or] at allowed
    simp [allowed]
  have kept : (layout message).filter (fun field => ¬ (field.tag = 8 ∨ field.tag = 9 ∨ field.tag = 35)) = message.fields := by
    rw [← others]
    simp [layout,body]
  rw [kept]

theorem first_of_delimited {first last rest more : List UInt8} (clean : SOH ∉ first) (clean' : SOH ∉ last)
    (same : first ++ SOH :: rest = last ++ SOH :: more) : first = last ∧ rest = more := by
  have upto {bytes : List UInt8} (after : List UInt8) (clean : SOH ∉ bytes) : (bytes ++ SOH :: after).takeWhile (· != SOH) = bytes := by
    have passes : ∀ byte ∈ bytes, (byte != SOH) = true := by
      intro byte member
      rw [bne_iff_ne]
      rintro rfl
      exact clean member
    rw [List.takeWhile_append_of_pos passes]
    simp
  have head : first = last := by rw [← upto rest clean,same,upto more clean']
  subst head
  exact ⟨rfl,(List.cons.inj (List.append_cancel_left same)).2⟩

/-- The digits of the body length, and what follows them. -/
def digits (message : FixMessage) : List UInt8 := as_bytes (toString (row (body message)).length)

theorem layout_bytes (message : FixMessage) : row (layout message) =
    [56,61] ++ as_bytes message.begin_string ++ SOH :: ([57,61] ++ digits message ++ SOH :: row (body message)) := by
  have eight : as_bytes (toString (8 : UInt32).toNat) = [56] := by decide +kernel
  have nine : as_bytes (toString (9 : UInt32).toNat) = [57] := by decide +kernel
  simp only [layout,row_cons,raw,eight,nine,digits]
  rfl

/-- A decoder that reads the header of an encoded message takes its kind of FIX. -/
theorem encoded_bytes {more buffer : List UInt8} (encoded : message.encode limits = .ok frame)
    (starts : header <+: buffer) (inside : buffer <+: frame ++ more) :
    frame = header ++ (digits message ++ SOH :: (row (body message) ++ trailer message)) := by
  obtain ⟨rfl,clean,_⟩ := encode_ok encoded
  have begins : SOH ∉ as_bytes message.begin_string := clean _ List.mem_cons_self
  have kind : SOH ∉ as_bytes FIXT_11 := by decide +kernel
  have written : header = [56,61] ++ as_bytes FIXT_11 ++ SOH :: [57,61] := by decide +kernel
  obtain ⟨rest,whole⟩ := starts.trans inside
  rw [layout_bytes] at whole ⊢
  rw [written] at whole ⊢
  simp only [List.append_assoc,List.cons_append,List.nil_append,List.cons.injEq,true_and] at whole
  obtain ⟨same,_⟩ := first_of_delimited kind begins whole
  rw [← same]
  simp

theorem total_of_digits {n : Nat} (total : total_of (digits message) (digits message).length = some n) :
    n = 13 + (digits message).length + 1 + (row (body message)).length + 7 := by
  simp only [total_of,Option.bind_eq_bind,Option.bind_eq_some_iff,checked_add_eq_some] at total
  obtain ⟨text,utf8,length,parsed,_,⟨rfl,_⟩,rfl,_⟩ := total
  rw [digits,from_utf8_as_bytes,Option.some.injEq] at utf8
  subst utf8
  rw [parse_unsigned_eq parsed]

/-- An encoded message ends where it was made to end. -/
theorem sealed_encoded (encoded : message.encode limits = .ok frame) (limits' : WireLimits) :
    (framer limits').Sealed frame := by
  intro more buffer found some_bytes inside ran
  have ran : complete_frame_len buffer limits' = .ok found := ran
  have starts := (header_of_ok ran).resolve_left some_bytes
  have bytes := encoded_bytes encoded starts inside
  have length : frame.length = 13 + (digits message).length + 1 + (row (body message)).length + 7 := by
    have thirteen : header.length = 13 := rfl
    rw [bytes]
    simp only [List.length_append,List.length_cons,thirteen,trailer_length]
    omega
  have after : (frame ++ more).drop 13 = digits message ++ SOH :: (row (body message) ++ trailer message ++ more) := by
    rw [bytes,List.append_assoc]
    have skip (rest : List UInt8) : (header ++ rest).drop 13 = rest := rfl
    simp [skip]
  have cut : ((frame ++ more).drop 13).findIdx? (· == SOH) = some (digits message).length := by
    have none_before : (digits message).findIdx? (· == SOH) = none :=
      List.findIdx?_eq_none_iff.mpr fun byte member =>
        beq_eq_false_iff_ne.mpr fun same => clean_number 9 _ (same ▸ member)
    rw [after,List.findIdx?_append,none_before]
    simp [List.findIdx?_cons]
  have prefixed : buffer = (frame ++ more).take buffer.length := List.prefix_iff_eq_take.mp inside
  rw [complete_frame_len_header starts,prefixed] at ran
  split at ran
  · next open_ended =>
    -- the length of the body is not all there, so the frame is not
    obtain rfl := (Except.ok.inj ran).symm
    rw [if_neg]
    intro enough
    rw [(delimiter_take buffer.length).mpr ⟨cut,by omega⟩] at open_ended
    cases open_ended
  · next i delimited =>
    rw [delimiter_take,cut,Option.some.injEq] at delimited
    obtain ⟨rfl,before⟩ := delimited
    obtain ⟨n,total,_,ran⟩ := delimited_frame_len_ok.mp ran
    rw [digits_take before.le,after,List.take_left] at total
    rw [length,← total_of_digits total]
    rw [← prefixed] at ran
    rcases ran with ⟨short,rfl⟩ | ⟨enough,_,rfl⟩
    · rw [if_neg (not_le.mpr short)]
    · rw [if_pos enough]

end Frames

end Bunting.Simfix
