import Bunting.Origin

/-!
The append-only journal of the server. A frame is a magic, the length of its
payload, the payload's hash and the payload. A scan visits complete frames in
order and takes an incomplete last one for the tail of a crash. A changed byte
is an error unless it makes the frame's length reach past the end of the file.
Reads and writes of the file succeed in the model.
-/

namespace Bunting.CommitJournal
open Stateful Bytes Origin

def MAGIC : List UInt8 := as_bytes "BUNTWAL3"
def HEADER_SIZE : Nat := 48
def MAX_RECORD_BYTES : Nat := 256 * 1024 * 1024

/-- The JSON of the journal's entries, which reads back what it wrote, and SHA-256. -/
structure Codec (Entry : Type) where
  to_vec : Entry → Option (List UInt8)
  from_slice : List UInt8 → Option Entry
  sha256 : List UInt8 → Digest
  reads_back : ∀ entry bytes, to_vec entry = some bytes → from_slice bytes = some entry

section Journal
variable {Entry σ : Type} (codec : Codec Entry)

def frame (payload : List UInt8) : List UInt8 :=
  MAGIC ++ to_le_bytes 8 payload.length ++ (codec.sha256 payload).bytes ++ payload

/-- Appends exactly one complete entry. -/
def append (entry : Entry) : EStateM OriginError (List UInt8) PUnit := do
  let bytes ← orElse (codec.to_vec entry) OriginError.InvalidCommit
  refuse (bytes.length = 0 ∨ MAX_RECORD_BYTES < bytes.length) OriginError.InvalidCommit
  modify fun file => file ++ frame codec bytes

/-- The payload of the next frame and what follows it; nothing if the frame is incomplete. -/
def next_frame (rest : List UInt8) : Except OriginError (Option (List UInt8 × List UInt8)) :=
  if rest.length < HEADER_SIZE then pure none
  else do
    let header := rest.take HEADER_SIZE
    refuse (header.take 8 ≠ MAGIC) OriginError.InvalidCommit
    let length := from_le_bytes ((header.drop 8).take 8)
    refuse (length = 0 ∨ MAX_RECORD_BYTES < length) OriginError.InvalidCommit
    if rest.length - HEADER_SIZE < length then pure none
    else do
      let bytes := (rest.drop HEADER_SIZE).take length
      refuse ((codec.sha256 bytes).bytes ≠ header.drop 16) OriginError.InvalidCommit
      pure (some (bytes,rest.drop (HEADER_SIZE + length)))

def cut_tail (offset : Nat) (repair : Bool) : EStateM OriginError (List UInt8) PUnit :=
  if repair then modify (List.take offset) else pure ⟨⟩

/-- The scan's loop, over what is left to read. Every round reads a frame, so there are fewer rounds than bytes. -/
def scan_loop (repair : Bool) (visit : σ → Entry → Except OriginError σ) :
    Nat → Nat → List UInt8 → σ → EStateM OriginError (List UInt8) σ
  | 0,_,_,s => pure s
  | rounds + 1,offset,rest,s =>
    if rest = [] then pure s
    else do
      match ← (liftM (next_frame codec rest) : EStateM OriginError (List UInt8) _) with
      | none =>
        cut_tail offset repair
        pure s
      | some (bytes,later) =>
        let entry ← orElse (codec.from_slice bytes) OriginError.InvalidCommit
        let s ← (liftM (visit s entry) : EStateM OriginError (List UInt8) σ)
        scan_loop repair visit rounds (offset + HEADER_SIZE + bytes.length) later s

/-- Visits every complete entry in order. With repair, an incomplete final frame is cut off. -/
def scan (repair : Bool) (visit : σ → Entry → Except OriginError σ) (s : σ) : EStateM OriginError (List UInt8) σ := do
  let file ← get
  scan_loop codec repair visit (file.length + 1) 0 file s

/-! ### Frames -/

variable {payload : List UInt8}

section Frames
variable {codec}

theorem magic_length : MAGIC.length = 8 := by decide +kernel

theorem frame_length (payload : List UInt8) : (frame codec payload).length = HEADER_SIZE + payload.length := by
  simp only [frame,List.length_append,magic_length,length_to_le_bytes,Digest.sized,HEADER_SIZE]

/-- The fields of what starts with forty-eight bytes. -/
theorem next_frame_eq {magic length hash later : List UInt8} (eight : magic.length = 8) (eight' : length.length = 8)
    (sized : hash.length = 32) :
    next_frame codec (magic ++ length ++ hash ++ later) =
      if magic ≠ MAGIC then .error .InvalidCommit
      else if from_le_bytes length = 0 ∨ MAX_RECORD_BYTES < from_le_bytes length then .error .InvalidCommit
      else if later.length < from_le_bytes length then .ok none
      else if (codec.sha256 (later.take (from_le_bytes length))).bytes ≠ hash then .error .InvalidCommit
      else .ok (some (later.take (from_le_bytes length),later.drop (from_le_bytes length))) := by
  have whole : (magic ++ length ++ hash).length = HEADER_SIZE := by
    simp only [List.length_append,eight,eight',sized,HEADER_SIZE]
  have header : (magic ++ length ++ hash ++ later).take HEADER_SIZE = magic ++ length ++ hash := by
    rw [← whole,List.take_left]
  have first : (magic ++ length ++ hash).take 8 = magic := by
    rw [List.append_assoc,← eight,List.take_left]
  have second : ((magic ++ length ++ hash).drop 8).take 8 = length := by
    rw [List.append_assoc,← eight,List.drop_left,eight,← eight',List.take_left]
  have third : (magic ++ length ++ hash).drop 16 = hash := by
    rw [show 16 = (magic ++ length).length by simp [eight,eight'],List.drop_left]
  have long : ¬ (magic ++ length ++ hash ++ later).length < HEADER_SIZE := by
    rw [List.length_append,whole]
    omega
  have left : (magic ++ length ++ hash ++ later).length - HEADER_SIZE = later.length := by
    rw [List.length_append,whole]
    omega
  have body : (magic ++ length ++ hash ++ later).drop HEADER_SIZE = later := by
    rw [← whole,List.drop_left]
  simp only [next_frame,header,first,second,third,left,body,if_neg long,← List.drop_drop,except_refuse]
  split_ifs <;> rfl

/-- A payload that may be appended. -/
def Fits (payload : List UInt8) : Prop := payload.length ≠ 0 ∧ payload.length ≤ MAX_RECORD_BYTES

theorem length_field (fits : Fits payload) :
    from_le_bytes (to_le_bytes 8 payload.length) = payload.length :=
  from_to_le_bytes (lt_of_le_of_lt fits.2 (by decide))

theorem next_frame_whole (fits : Fits payload) (later : List UInt8) :
    next_frame codec (frame codec payload ++ later) = .ok (some (payload,later)) := by
  have nonempty := fits.1
  have small := fits.2
  rw [frame,List.append_assoc,next_frame_eq magic_length (length_to_le_bytes ..) (Digest.sized _),length_field fits,
    List.take_left,List.drop_left,if_neg (by simp),if_neg (by omega),if_neg (by simp),if_neg (by simp)]

theorem next_frame_short (fits : Fits payload) {n : Nat} (short : n < (frame codec payload).length) :
    next_frame codec ((frame codec payload).take n) = .ok none := by
  have nonempty := fits.1
  have small := fits.2
  by_cases header : n < HEADER_SIZE
  · rw [next_frame,if_pos]
    · rfl
    · rw [List.length_take]
      omega
  · have whole : (MAGIC ++ to_le_bytes 8 payload.length ++ (codec.sha256 payload).bytes).length = HEADER_SIZE := by
      simp only [List.length_append,magic_length,length_to_le_bytes,Digest.sized,HEADER_SIZE]
    rw [frame_length] at short
    rw [frame,List.take_append,List.take_of_length_le (by omega),whole,
      next_frame_eq magic_length (length_to_le_bytes ..) (Digest.sized _),length_field fits,if_neg (by simp),
      if_neg (by omega),if_pos]
    rw [List.length_take]
    omega

/-- A frame with one byte changed is refused, unless its length then reaches past the end of the file. -/
theorem next_frame_changed {bytes : List UInt8} (later : List UInt8) (fits : Fits payload)
    (change : Changed (frame codec payload) bytes)
    (detects : ∀ other, other ≠ payload → codec.sha256 other ≠ codec.sha256 payload) :
    next_frame codec (bytes ++ later) =
      if payload.length + later.length < from_le_bytes ((bytes.drop 8).take 8) ∧
        from_le_bytes ((bytes.drop 8).take 8) ≤ MAX_RECORD_BYTES then .ok none else .error .InvalidCommit := by
  have nonempty := fits.1
  have small := fits.2
  -- The length is the second of the four parts.
  have field {magic length hash body : List UInt8} (eight : magic.length = 8) (eight' : length.length = 8) :
      ((magic ++ length ++ hash ++ body).drop 8).take 8 = length := by
    rw [List.append_assoc,List.append_assoc,← eight,List.drop_left,eight,← eight',List.take_left]
  have hash_ne {other : List UInt8} (differs : other ≠ payload) :
      (codec.sha256 other).bytes ≠ (codec.sha256 payload).bytes := fun same => detects other differs (Digest.ext same)
  have le := length_to_le_bytes 8 payload.length
  have hash := (codec.sha256 payload).sized
  rcases change.append with ⟨_,rfl,in_header⟩ | ⟨body,rfl,in_body⟩
  · rcases in_header.append with ⟨_,rfl,in_front⟩ | ⟨digest,rfl,in_hash⟩
    · rcases in_front.append with ⟨magic,rfl,in_magic⟩ | ⟨length,rfl,in_length⟩
      · have eight := in_magic.length.trans magic_length
        rw [field eight le,List.append_assoc,next_frame_eq eight le hash,length_field fits,if_pos in_magic.ne,
          if_neg (by omega)]
      · have eight := in_length.length.trans le
        rw [field magic_length eight,List.append_assoc,next_frame_eq magic_length eight hash,if_neg (by simp),
          List.length_append]
        by_cases bad : from_le_bytes length = 0 ∨ MAX_RECORD_BYTES < from_le_bytes length
        · rw [if_pos bad,if_neg (by omega)]
        by_cases past : payload.length + later.length < from_le_bytes length
        · rw [if_neg bad,if_pos past,if_pos (by omega)]
        · -- Another length reads other bytes.
          have other : (payload ++ later).take (from_le_bytes length) ≠ payload := by
            intro same
            have count := congrArg List.length same
            rw [List.length_take,List.length_append,min_eq_left (by omega),← length_field fits] at count
            exact in_length.ne (from_le_bytes_injective in_length.length count)
          rw [if_neg bad,if_neg past,if_pos (hash_ne other),if_neg (by omega)]
    · have sized := in_hash.length.trans hash
      rw [field magic_length le,List.append_assoc,next_frame_eq magic_length le sized,length_field fits,if_neg (by simp),
        if_neg (by omega),if_neg (by simp),List.take_left,if_pos in_hash.ne.symm,if_neg (by omega)]
  · rw [field magic_length le,List.append_assoc,next_frame_eq magic_length le hash,length_field fits,if_neg (by simp),
      if_neg (by omega),if_neg (by simp [in_body.length]),← in_body.length,List.take_left,if_pos (hash_ne in_body.ne),
      if_neg (by omega)]

end Frames

/-! ### Scanning a journal -/

def frames (entries : List Entry) : List UInt8 := entries.flatMap fun entry => frame codec ((codec.to_vec entry).getD [])

/-- An entry that the journal takes. -/
def Appendable (entry : Entry) : Prop := ∃ payload, codec.to_vec entry = some payload ∧ Fits payload

section Scanning
variable {codec} {repair : Bool} {visit : σ → Entry → Except OriginError σ} {entries done : List Entry} {entry : Entry}
  {file rest : List UInt8} {s : σ}

@[simp] theorem frames_nil : frames codec [] = [] := rfl

theorem frames_cons (encoded : codec.to_vec entry = some payload) :
    frames codec (entry :: entries) = frame codec payload ++ frames codec entries := by
  rw [frames,List.flatMap_cons,encoded]
  rfl

theorem frames_append (xs ys : List Entry) : frames codec (xs ++ ys) = frames codec xs ++ frames codec ys :=
  List.flatMap_append ..

theorem length_le_frames (entries : List Entry) : entries.length ≤ (frames codec entries).length := by
  induction entries with
  | nil => simp
  | cons entry entries ih =>
    rw [frames,List.flatMap_cons,List.length_append,frame_length,List.length_cons]
    simp only [frames,HEADER_SIZE] at ih ⊢
    omega

theorem appended {start : List UInt8} (ran : (entries.forM (append codec)).run start = .ok ⟨⟩ file) :
    (∀ entry ∈ entries, Appendable codec entry) ∧ file = start ++ frames codec entries := by
  induction entries generalizing start with
  | nil =>
    cases (pure_eq_ok.mp ran).2
    simp
  | cons entry entries ih =>
    obtain ⟨_,mid,first,later⟩ := bind_eq_ok.mp ran
    simp only [append,returned] at first
    obtain ⟨payload,encoded,sized,rfl⟩ := first
    obtain ⟨fine,rfl⟩ := ih later
    have fits : Fits payload := ⟨fun none => sized (.inl none),not_lt.mp fun long => sized (.inr long)⟩
    refine ⟨List.forall_mem_cons.mpr ⟨⟨payload,encoded,fits⟩,fine⟩,?_⟩
    rw [frames_cons encoded,List.append_assoc]

/-- A complete frame is visited, and the scan goes on after it. -/
theorem scan_loop_whole (encoded : codec.to_vec entry = some payload) (fits : Fits payload) (rounds offset : Nat) :
    (scan_loop codec repair visit (rounds + 1) offset (frame codec payload ++ rest) s).run file =
      match visit s entry with
      | .error e => .error e file
      | .ok s' =>
        (scan_loop codec repair visit rounds (offset + (frame codec payload).length) rest s').run file := by
  have nonempty : frame codec payload ++ rest ≠ [] := by
    rw [Ne,List.append_eq_nil_iff,List.eq_nil_iff_length_eq_zero,frame_length,HEADER_SIZE]
    omega
  rw [scan_loop,if_neg nonempty,next_frame_whole fits,frame_length,← Nat.add_assoc]
  change (orElse (codec.from_slice payload) OriginError.InvalidCommit >>= _ : EStateM OriginError (List UInt8) σ).run file = _
  rw [codec.reads_back entry payload encoded]
  change (liftM (visit s entry) >>= _ : EStateM OriginError (List UInt8) σ).run file = _
  cases visit s entry <;> rfl

theorem scan_loop_frames (fine : ∀ entry ∈ done, Appendable codec entry) (rounds offset : Nat) :
    (scan_loop codec repair visit (done.length + rounds) offset (frames codec done ++ rest) s).run file =
      match done.foldlM visit s with
      | .error e => .error e file
      | .ok s' => (scan_loop codec repair visit rounds (offset + (frames codec done).length) rest s').run file := by
  induction done generalizing offset s with
  | nil => simp [pure,Except.pure]
  | cons entry done ih =>
    obtain ⟨⟨payload,encoded,fits⟩,fine⟩ := List.forall_mem_cons.mp fine
    rw [frames_cons encoded,List.length_cons,Nat.add_right_comm,List.append_assoc,scan_loop_whole encoded fits,
      List.foldlM_cons]
    cases visit s entry with
    | error e => rfl
    | ok s' =>
      rw [List.length_append,← Nat.add_assoc]
      exact ih fine _

/-- A journal is scanned up to where its complete frames end. -/
theorem scan_frames (repair : Bool) (visit : σ → Entry → Except OriginError σ) (s : σ) (rest : List UInt8)
    (fine : ∀ entry ∈ done, Appendable codec entry) :
    ∃ rounds, (scan codec repair visit s).run (frames codec done ++ rest) =
      match done.foldlM visit s with
      | .error e => .error e (frames codec done ++ rest)
      | .ok s' => (scan_loop codec repair visit (rounds + 1) (frames codec done).length rest s').run
          (frames codec done ++ rest) := by
  have many : done.length ≤ (frames codec done).length := length_le_frames done
  have count : (frames codec done ++ rest).length + 1 =
      done.length + ((frames codec done ++ rest).length - done.length + 1) := by
    rw [List.length_append]
    omega
  refine ⟨(frames codec done ++ rest).length - done.length,?_⟩
  change (scan_loop codec repair visit ((frames codec done ++ rest).length + 1) 0 _ s).run _ = _
  rw [count,scan_loop_frames fine,Nat.zero_add]

theorem scan_loop_torn (rounds offset : Nat) (nonempty : rest ≠ []) (torn : next_frame codec rest = .ok none) :
    (scan_loop codec repair visit (rounds + 1) offset rest s).run file = .ok s (if repair then file.take offset else file) := by
  rw [scan_loop,if_neg nonempty,torn]
  change (cut_tail offset repair >>= fun _ => pure s).run file = _
  cases repair <;> rfl

theorem scan_loop_refused {e : OriginError} (rounds offset : Nat) (nonempty : rest ≠ [])
    (bad : next_frame codec rest = .error e) :
    (scan_loop codec repair visit (rounds + 1) offset rest s).run file = .error e file := by
  rw [scan_loop,if_neg nonempty,bad]
  rfl

/-- A journal that was cut has the frames before the cut, and part of the next one. -/
theorem scan_cut {later : List Entry} {cut : Nat} (fine : ∀ entry ∈ done ++ later, Appendable codec entry)
    (inside : (frames codec done).length ≤ cut)
    (next : ∀ entry ∈ later.head?, cut < (frames codec (done ++ [entry])).length) :
    (scan codec repair visit s).run ((frames codec (done ++ later)).take cut) =
      match done.foldlM visit s with
      | .error e => .error e ((frames codec (done ++ later)).take cut)
      | .ok s' => .ok s' (if repair then frames codec done else (frames codec (done ++ later)).take cut) := by
  have split : (frames codec (done ++ later)).take cut =
      frames codec done ++ (frames codec later).take (cut - (frames codec done).length) := by
    rw [frames_append,List.take_append,List.take_of_length_le inside]
  obtain ⟨fine,fine'⟩ := List.forall_mem_append.mp fine
  obtain ⟨rounds,scanned⟩ := scan_frames repair visit s ((frames codec later).take (cut - (frames codec done).length)) fine
  rw [split,scanned]
  cases done.foldlM visit s with
  | error e => rfl
  | ok s' =>
    by_cases left : (frames codec later).take (cut - (frames codec done).length) = []
    · simp only [left,scan_loop,if_true,List.append_nil]
      cases repair <;> rfl
    · cases later with
      | nil => simp at left
      | cons entry later =>
        obtain ⟨⟨payload,encoded,fits⟩,_⟩ := List.forall_mem_cons.mp fine'
        have short := next entry rfl
        rw [frames_append,frames_cons encoded,frames_nil,List.append_nil,List.length_append] at short
        have part : (frames codec (entry :: later)).take (cut - (frames codec done).length) =
            (frame codec payload).take (cut - (frames codec done).length) := by
          rw [frames_cons encoded,List.take_append_of_le_length (by omega)]
        simp only
        rw [scan_loop_torn _ _ left (by rw [part]; exact next_frame_short fits (by omega)),List.take_left]

/-- A changed byte stops the scan at its frame, with an error or as a crash tail. -/
theorem scan_changed {bytes : List UInt8} (later : List UInt8) (fine : ∀ entry ∈ done, Appendable codec entry)
    (fits : Fits payload) (change : Changed (frame codec payload) bytes)
    (detects : ∀ other, other ≠ payload → codec.sha256 other ≠ codec.sha256 payload) :
    (∃ e t, (scan codec repair visit s).run (frames codec done ++ (bytes ++ later)) = .error e t) ↔
      (∃ e, done.foldlM visit s = .error e) ∨
        from_le_bytes ((bytes.drop 8).take 8) ≤ payload.length + later.length ∨
        MAX_RECORD_BYTES < from_le_bytes ((bytes.drop 8).take 8) := by
  have nonempty : bytes ++ later ≠ [] := by
    rw [Ne,List.append_eq_nil_iff,List.eq_nil_iff_length_eq_zero,change.length,frame_length,HEADER_SIZE]
    omega
  obtain ⟨rounds,scanned⟩ := scan_frames repair visit s (bytes ++ later) fine
  have stops := next_frame_changed later fits change detects
  rw [scanned]
  cases done.foldlM visit s with
  | error e => simp
  | ok s' =>
    simp only [reduceCtorEq,exists_false,false_or]
    split_ifs at stops with past
    · rw [scan_loop_torn _ _ nonempty stops]
      exact iff_of_false (by simp) (by omega)
    · rw [scan_loop_refused _ _ nonempty stops]
      exact iff_of_true ⟨_,_,rfl⟩ (by omega)

/-- A journal that was cut at any byte is scanned for the frames before the cut, and repair leaves their bytes. One that has
    a byte of a frame changed is an error if the frame's length then ends within the file or is too large; if not, the
    frame and all after it are taken for the tail of a crash. -/
theorem scan_keeps_complete_frames (codec : Codec Entry) (entries : List Entry) (file : List UInt8)
    (written : (entries.forM (append codec)).run [] = .ok ⟨⟩ file) (repair : Bool)
    (visit : σ → Entry → Except OriginError σ) (s : σ) :
    (∀ done later cut, entries = done ++ later → (frames codec done).length ≤ cut →
      (∀ entry ∈ later.head?, cut < (frames codec (done ++ [entry])).length) →
      (scan codec repair visit s).run (file.take cut) =
        match done.foldlM visit s with
        | .error e => .error e (file.take cut)
        | .ok s' => .ok s' (if repair then frames codec done else file.take cut)) ∧
    ∀ done entry later payload bytes, entries = done ++ entry :: later → codec.to_vec entry = some payload →
      Changed (frame codec payload) bytes →
      (∀ other, other ≠ payload → codec.sha256 other ≠ codec.sha256 payload) →
      ((∃ e t, (scan codec repair visit s).run (frames codec done ++ (bytes ++ frames codec later)) = .error e t) ↔
        (∃ e, done.foldlM visit s = .error e) ∨
          from_le_bytes ((bytes.drop 8).take 8) ≤ payload.length + (frames codec later).length ∨
          MAX_RECORD_BYTES < from_le_bytes ((bytes.drop 8).take 8)) := by
  obtain ⟨fine,rfl⟩ := appended written
  refine ⟨?_,?_⟩
  · rintro done later cut rfl inside next
    exact scan_cut fine inside next
  · rintro done entry later payload bytes rfl encoded change detects
    obtain ⟨fine,fine'⟩ := List.forall_mem_append.mp fine
    obtain ⟨⟨payload',encoded',fits⟩,_⟩ := List.forall_mem_cons.mp fine'
    obtain rfl := Option.some.inj (encoded.symm.trans encoded')
    exact scan_changed _ fine fits change detects

end Scanning
end Journal

/-- The JSON of the record of a kill switch's reset, up to the hashes. -/
def sample_record (command before after fingerprint chain : String) : String :=
  "\x7b\"command\":\x7b\"input\":\x7b\"command\":\x7b\"run_id\":1,\"command_id\":" ++ command ++
  ",\"correlation_id\":0,\"logical_time\":5,\"expected_sequence\":" ++ before ++
  ",\"actor\":1,\"payload\":\"reset_kill_switch\"\x7d\x7d,\"fingerprint\":\"" ++ fingerprint ++
  "\",\"result\":\x7b\"accepted\":true,\"reject_code\":null,\"committed_sequence\":" ++ after ++
  ",\"order_id\":null\x7d,\"events\":[\x7b\"schema_version\":1,\"run_id\":1,\"event_id\":" ++ after ++
  ",\"sequence\":" ++ after ++ ",\"logical_time\":5,\"actor\":1,\"command_id\":" ++ command ++
  ",\"correlation_id\":0,\"causation_sequence\":null,\"payload\":\"kill_switch_reset\"\x7d],\"chain\":\"" ++ chain ++
  "\"\x7d\x7d"

def sample_first : String := sample_record "7" "0" "1"
  "8d4208dad11c3ee7c9dba2b8d5b16bfd56cdf99e0612b059414d37bb267a57d6"
  "aeebad4a796fcc2e15dc4c6061b45ed9b373f26adfc798ca7d2d8cc58182718e"
def sample_second : String := sample_record "8" "1" "2"
  "97674b73015ffea64e4510af6fbb0a04bcc2c1635e3bf1457866c639784ab9a1"
  "70ce871f8a3d3fb449bc3c3ace6547cef02dfc74ffe48d912532a724bfdbe5b9"

/-- Entries by their JSON; the hash tells the first record from everything else. -/
def sample_codec : Codec String where
  to_vec entry := some (as_bytes entry)
  from_slice := from_utf8
  sha256 bytes := ⟨List.replicate 32 (if bytes = as_bytes sample_first then 1 else 0),List.length_replicate⟩
  reads_back := by
    rintro entry _ ⟨⟩
    exact from_utf8_as_bytes entry

def sample_visit (seen : List String) (entry : String) : Except OriginError (List String) := .ok (seen ++ [entry])

theorem sample_written : ([sample_first,sample_second].forM (append sample_codec)).run [] =
    .ok ⟨⟩ (frames sample_codec [sample_first,sample_second]) := by decide +kernel

/-- A cut within the second of two frames leaves the first; a changed payload is an error. -/
theorem scan_keeps_the_first_of_two :
    (scan sample_codec true sample_visit []).run ((frames sample_codec [sample_first,sample_second]).take 800) =
      .ok [sample_first] (frames sample_codec [sample_first]) ∧
    ∃ e t, (scan sample_codec true sample_visit []).run
      ((frame sample_codec (as_bytes sample_first)).set 48 7 ++ frames sample_codec [sample_second]) = .error e t := by
  obtain ⟨cut,changed⟩ := scan_keeps_complete_frames sample_codec _ _ sample_written true sample_visit []
  refine ⟨cut [sample_first] [sample_second] 800 rfl (by decide +kernel) ?_,?_⟩
  · rintro _ ⟨⟩
    decide +kernel
  · refine (changed [] sample_first [sample_second] _ _ rfl rfl ⟨48,123,7,by decide +kernel,by decide,rfl⟩ ?_).mpr
      (.inr (.inl (by decide +kernel)))
    intro other differs same
    have bytes := congrArg Digest.bytes same
    simp only [sample_codec,if_neg differs,if_true] at bytes
    cases bytes

/-- With the third byte of the first frame's length changed, repair drops both frames of the journal. -/
theorem changed_length_drops_frames :
    ([sample_first,sample_second].forM (append sample_codec)).run [] =
      .ok ⟨⟩ (frames sample_codec [sample_first,sample_second]) ∧
    Changed (frame sample_codec (as_bytes sample_first)) ((frame sample_codec (as_bytes sample_first)).set 10 1) ∧
    (scan sample_codec true sample_visit []).run
      ((frame sample_codec (as_bytes sample_first)).set 10 1 ++ frames sample_codec [sample_second]) = .ok [] [] := by
  refine ⟨sample_written,⟨10,0,1,?_,?_,rfl⟩,?_⟩ <;> decide +kernel

end Bunting.CommitJournal
