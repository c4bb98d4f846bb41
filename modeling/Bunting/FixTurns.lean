import Bunting.FixSession
import Bunting.Numbered

/-!
What a call of a FIX session sends and takes. Every frame that goes out is a
message of the log under its own number, or a gap fill over numbers that the
journal did not have. A message that comes in its turn is delivered, passed or
fills a gap.
-/

namespace Bunting.Simfix
open Stateful Framing Bytes Numbered FixSession

/-! ### Headers -/

@[simp] theorem wire_eq_ok {α : Type} {x : Except WireError α} {a : α} : wire x = .ok a ↔ x = .ok a := by
  cases x <;> simp [wire,Except.mapError]

@[simp] theorem msg_type_content (message : FixMessage) : (content message).msg_type = message.msg_type := rfl

section Headers
variable (config : SessionConfig) (message : FixMessage) (sequence : Nat) (timestamp : String) (original : Option String)

@[simp] theorem msg_type_stamped : (stamped config message sequence timestamp original).msg_type = message.msg_type := by
  cases original <;> rfl

theorem fields_stamped : ∃ header, (stamped config message sequence timestamp original).fields =
    (content message).fields ++ [⟨49,config.sender_comp_id⟩,⟨56,config.target_comp_id⟩,⟨34,toString sequence⟩] ++ header ∧
    ∀ field ∈ header, field.tag ∈ header_tags := by
  cases original with
  | none => exact ⟨[⟨52,timestamp⟩],by simp [stamped,FixMessage.push],by simp [header_tags]⟩
  | some time => exact ⟨[⟨43,"Y"⟩,⟨122,time⟩,⟨52,timestamp⟩],by simp [stamped,FixMessage.push],by simp [header_tags]⟩

@[simp] theorem content_stamped : content (stamped config message sequence timestamp original) = content message := by
  have kind : (stamped config message sequence timestamp original).begin_string = message.begin_string := by
    cases original <;> rfl
  obtain ⟨header,fields,all⟩ := fields_stamped config message sequence timestamp original
  have none_left : header.filter (fun field => field.tag ∉ header_tags) = [] :=
    List.filter_eq_nil_iff.mpr fun field member => by simpa using all field member
  have again : (content message).fields.filter (fun field => field.tag ∉ header_tags) = (content message).fields := by
    simp [content]
  rw [content,fields,List.filter_append,List.filter_append,again,none_left,kind,msg_type_stamped]
  simp [header_tags,content]

theorem value_stamped : (stamped config message sequence timestamp original).value 34 = some (toString sequence) := by
  obtain ⟨header,fields,_⟩ := fields_stamped config message sequence timestamp original
  have before : (content message).fields.find? (fun field => field.tag = 34) = none := by
    rw [List.find?_eq_none]
    intro field member
    have allowed : field.tag ∉ header_tags := by simpa using (List.mem_filter.mp member).2
    simp only [decide_eq_true_eq]
    rintro same
    exact allowed (same ▸ by decide)
  rw [FixMessage.value,fields,List.append_assoc,List.find?_append,before]
  rfl

variable {config message sequence timestamp original}

theorem parse_stamped {k : Nat} (parsed : parse (stamped config message sequence timestamp original) 34 = some k) :
    k = sequence := by
  rw [parse,value_stamped] at parsed
  exact parse_unsigned_eq parsed

theorem parse_gap_fill {next k : Nat}
    (parsed : parse (stamped config (gap_fill next) sequence timestamp original) 36 = some k) : k = next := by
  have value : (stamped config (gap_fill next) sequence timestamp original).value 36 = some (toString next) := by
    cases original <;> rfl
  rw [parse,value] at parsed
  exact parse_unsigned_eq parsed

end Headers

/-! ### What goes out -/

/-- The messages for the application; the others belong to the session. -/
def IsApplication (message : FixMessage) : Prop := message.msg_type ∉ ["A","0","1","2","4","5"]

instance (message : FixMessage) : Decidable (IsApplication message) := inferInstanceAs (Decidable (_ ∉ _))

/-- A message means what the log has under its number, or it is a gap fill over numbers that were let go. -/
def Carries (log : Log FixMessage) (gaps : Nat → Prop) (message : FixMessage) : Prop :=
  ∀ n, parse message 34 = some n →
    (n,content message) ∈ log.entries ∨
    message.msg_type = "4" ∧ ∀ next, parse message 36 = some next → ∀ i, n ≤ i → i < next → gaps i ∧ i < log.top

/-- A frame of such a message. -/
def Written (log : Log FixMessage) (gaps : Nat → Prop) (frame : List UInt8) : Prop :=
  ∃ message limits, message.encode limits = .ok frame ∧ Carries log gaps message

/-- What a session has sent and can send again. -/
structure Kept (log : Log FixMessage) (snapshot : SessionSnapshot) : Prop where
  top : log.top = snapshot.outgoing_sequence
  plain : ∀ e ∈ log.entries, e.2.msg_type ≠ "4"
  journal : ∀ n entry, snapshot.journal.get? n = some entry →
    ∃ message limits, message.encode limits = .ok entry.frame ∧ (n,content message) ∈ log.entries

variable {key : Option String} {sequence : Nat} {received : List (Nat × FixMessage)}

section Sending
variable {log log' log'' : Log FixMessage} {gaps gaps' : Nat → Prop} {message : FixMessage} {frame : List UInt8}
  {s t u : FixSession} {actions later : List SessionAction} {timestamp : String} {now_millis : Nat}
  {entry : JournalEntry}

theorem Carries.grow (carries : Carries log gaps message) (grows : log.Grows log') (more : ∀ n, gaps n → gaps' n) :
    Carries log' gaps' message := by
  intro n numbered
  rcases carries n numbered with original | ⟨fill,let_go⟩
  · exact .inl (grows.mem original)
  · refine .inr ⟨fill,fun next parsed i low high => ?_⟩
    obtain ⟨gone,bound⟩ := let_go next parsed i low high
    exact ⟨more i gone,bound.trans_le grows.top⟩

theorem Written.grow (written : Written log gaps frame) (grows : log.Grows log') (more : ∀ n, gaps n → gaps' n) :
    Written log' gaps' frame := by
  obtain ⟨message,limits,encoded,carries⟩ := written
  exact ⟨message,limits,encoded,carries.grow grows more⟩

/-- A call that sends: the log grows, and all that goes out is written by it. -/
structure Turn (log : Log FixMessage) (gaps : Nat → Prop) (actions : List SessionAction) (snapshot : SessionSnapshot)
    (log' : Log FixMessage) : Prop where
  grows : log.Grows log'
  kept : Kept log' snapshot
  written : ∀ frame, .Send frame ∈ actions → Written log' gaps frame

theorem Turn.trans (first : Turn log gaps actions s.snapshot log') (next : Turn log' gaps later t.snapshot log'') :
    Turn log gaps (actions ++ later) t.snapshot log'' := by
  refine ⟨first.grows.trans next.grows,next.kept,fun frame member => ?_⟩
  rcases List.mem_append.mp member with before | after
  · exact (first.written frame before).grow next.grows fun _ gone => gone
  · exact next.written frame after

/-- Nothing goes out, and nothing is forgotten. -/
theorem turn_still (kept : Kept log s.snapshot) (outgoing : t.snapshot.outgoing_sequence = s.snapshot.outgoing_sequence)
    (journal : t.snapshot.journal = s.snapshot.journal) (silent : ∀ frame, .Send frame ∉ actions) :
    Turn log gaps actions t.snapshot log :=
  ⟨.refl log,⟨outgoing ▸ kept.top,kept.plain,journal ▸ kept.journal⟩,fun frame member => absurd member (silent frame)⟩

variable {journal : OrdMap Nat JournalEntry}

theorem evict_get? {bound rounds : Nat} {n : Nat}
    (found : (evict bound rounds journal).get? n = some entry) : journal.get? n = some entry := by
  induction rounds generalizing journal with
  | zero => exact found
  | succ rounds ih =>
    rw [evict] at found
    split_ifs at found with full
    · split at found
      · exact found
      · exact OrdMap.of_erase (ih found)
    · exact found

/-- A journal has the new frame and otherwise nothing that it did not have. -/
theorem journaled_get? {config : SessionConfig} {n : Nat} (found : (journaled config journal sequence frame key).get? n = some entry) :
    n = sequence ∧ entry.frame = frame ∨ journal.get? n = some entry := by
  simp only [journaled,OrdMap.get?_insert] at found
  split_ifs at found with same
  · cases found
    exact .inl ⟨same,rfl⟩
  · right
    have kept := evict_get? found
    cases key with
    | none => exact kept
    | some key => exact (OrdMap.get?_retain_eq_some.mp kept).1

theorem send_new_ok {journal : Bool}
    (ran : (FixSession.send_new message timestamp now_millis journal key).run s = .ok actions t) :
    ∃ frame, (stamped s.config message s.snapshot.outgoing_sequence timestamp none).encode s.config.wire_limits = .ok frame ∧
      actions = [.Send frame,.Persist] ∧
      t = { s with snapshot := { s.snapshot with
        journal :=
          if journal then journaled s.config s.snapshot.journal s.snapshot.outgoing_sequence frame key
          else s.snapshot.journal
        outgoing_sequence := s.snapshot.outgoing_sequence + 1
        last_sent_millis := now_millis } } := by
  simp only [FixSession.send_new,returned,encode_at,wire_eq_ok] at ran
  obtain ⟨next,added,frame,encoded,rfl,rfl⟩ := ran
  obtain ⟨rfl,_⟩ := checked_add_eq_some.mp added
  exact ⟨frame,encoded,rfl,rfl⟩

/-- A new message goes into the log under the next number. -/
theorem send_new_turn {journal : Bool} (kept : Kept log s.snapshot) (plain : message.msg_type ≠ "4")
    (ran : (FixSession.send_new message timestamp now_millis journal key).run s = .ok actions t) :
    Turn log gaps actions t.snapshot (log.push (content message)) := by
  obtain ⟨frame,encoded,rfl,rfl⟩ := send_new_ok ran
  have here : (s.snapshot.outgoing_sequence,content message) ∈ (log.push (content message)).entries :=
    Log.mem_push.mpr (.inr (by rw [kept.top]))
  refine ⟨log.grows_push _,⟨?_,?_,?_⟩,?_⟩
  · exact congrArg (· + 1) kept.top
  · intro e member
    rcases Log.mem_push.mp member with old | rfl
    · exact kept.plain e old
    · exact plain
  · intro n entry found
    have source : n = s.snapshot.outgoing_sequence ∧ entry.frame = frame ∨ s.snapshot.journal.get? n = some entry := by
      cases journal with
      | true => exact journaled_get? found
      | false => exact .inr found
    rcases source with ⟨rfl,rfl⟩ | old
    · exact ⟨_,_,encoded,by rwa [content_stamped]⟩
    · obtain ⟨message,limits,encoded,member⟩ := kept.journal n entry old
      exact ⟨message,limits,encoded,(log.grows_push _).mem member⟩
  · intro other member
    obtain rfl : other = frame := by simpa using member
    refine ⟨_,_,encoded,fun n numbered => .inl ?_⟩
    rw [parse_stamped numbered,content_stamped]
    exact here

/-! ### What goes out again -/

/-- A request for the numbers from `begin` to `end`; an end of zero is open. -/
def Asks (request : FixMessage) (n : Nat) : Prop :=
  request.msg_type = "2" ∧ ∃ first last, parse request 7 = some first ∧ parse request 16 = some last ∧
    first ≤ n ∧ (last = 0 ∨ n ≤ last)

/-- A number that was sent and asked for when the journal no longer had it. -/
def LetGo (request : FixMessage) (snapshot : SessionSnapshot) (n : Nat) : Prop :=
  Asks request n ∧ n < snapshot.outgoing_sequence ∧ snapshot.journal.get? n = none

/-- A frame of the journal decodes to the message it was made of. -/
theorem decode_one_eq {limits limits' : WireLimits} {dictionary : CompetitionDictionary} {read : FixMessage}
    (encoded : message.encode limits = .ok frame) (ran : decode_one frame limits' dictionary = .ok read) : read = message := by
  rw [decode_one] at ran
  split at ran
  · next messages decoder pushed =>
    obtain ⟨_,frames,rest,cuts,parsed,_⟩ := Decoder.push_ok.mp pushed
    have only : ∀ f ∈ [frame], (framer limits').Sealed f := by
      intro f member
      rw [List.mem_singleton.mp member]
      exact sealed_encoded encoded limits'
    obtain ⟨others,split,_⟩ := cuts.of_sealed (x := []) only (by simp [Decoder.try_new])
    have head := except_orElse_eq_ok.mp ran
    cases frames with
    | nil =>
      obtain rfl := except_pure_eq_ok.mp parsed
      cases head
    | cons first frames =>
      obtain rfl : frame = first := (List.cons.inj split).1
      simp only [List.mapM_cons,returned] at parsed
      obtain ⟨message',first_read,_,_,rfl⟩ := parsed
      obtain rfl := Option.some.inj head
      exact parse_encoded encoded (Decoder.read_eq_ok.mp first_read).1
  · cases ran

/-- The numbers that a gap fill passes over are not in the journal. -/
theorem next_journaled {last i : Nat} (low : sequence ≤ i)
    (high : i < match journal.entries.find? (fun entry => sequence ≤ entry.1 ∧ entry.1 ≤ last) with
      | some entry => entry.1
      | none => min (last + 1) usize_max) : i ≤ last ∧ journal.get? i = none := by
  split at high
  · next entry found =>
    have bounds : sequence ≤ entry.1 ∧ entry.1 ≤ last := by simpa using List.find?_some found
    refine ⟨by omega,?_⟩
    by_contra there
    obtain ⟨x,there⟩ := Option.ne_none_iff_exists'.mp there
    obtain ⟨before,after,entries,skipped⟩ := (List.find?_eq_some_iff_append.mp found).2
    have member := OrdMap.mem_of_get? there
    have sorted := journal.sorted
    rw [entries] at member sorted
    rcases List.mem_append.mp member with early | late
    · have missed := skipped _ early
      simp only [Bool.not_eq_eq_eq_not,Bool.not_true,decide_eq_false_iff_not,not_and] at missed
      exact missed low (by omega)
    · rcases List.mem_cons.mp late with rfl | later
      · exact lt_irrefl _ high
      · have order := (List.pairwise_cons.mp (List.pairwise_append.mp sorted).2.1).1 _ later
        exact absurd high order.not_gt
  · next missing =>
    have inside : i ≤ last := Nat.lt_succ_iff.mp (lt_min_iff.mp high).1
    refine ⟨inside,?_⟩
    by_contra there
    obtain ⟨x,there⟩ := Option.ne_none_iff_exists'.mp there
    have skipped := List.find?_eq_none.mp missing _ (OrdMap.mem_of_get? there)
    simp only [decide_eq_true_eq,not_and] at skipped
    exact skipped low inside

/-- All that is sent again is written by the log: copies, and gap fills over what the journal does not have. -/
theorem replay_written {first last rounds : Nat} (kept : Kept log s.snapshot)
    (bound : ∀ i, first ≤ i → i ≤ last → i < s.snapshot.outgoing_sequence) (start : first ≤ sequence)
    (start' : first ≤ min (last + 1) usize_max)
    (let_go : ∀ i, first ≤ i → i ≤ last → s.snapshot.journal.get? i = none → gaps i)
    (ran : s.replay timestamp last rounds sequence = .ok actions) :
    ∀ frame, .Send frame ∈ actions → Written log gaps frame := by
  induction rounds generalizing sequence actions with
  | zero =>
    obtain rfl := except_pure_eq_ok.mp ran
    exact fun _ member => (nomatch member)
  | succ rounds ih =>
    rw [replay] at ran
    split_ifs at ran with over_all
    · obtain rfl := except_pure_eq_ok.mp ran
      exact fun _ member => (nomatch member)
    split at ran
    · next entry found =>
      simp only [returned,encode_at,wire_eq_ok] at ran
      obtain ⟨original,decoded,frame,encoded,next,added,others,ran,rfl⟩ := ran
      obtain ⟨rfl,_⟩ := checked_add_eq_some.mp added
      obtain ⟨message,limits,written,member⟩ := kept.journal _ _ found
      obtain rfl := decode_one_eq written decoded
      intro frame' sent
      rcases List.mem_cons.mp sent with same | sent
      · cases same
        refine ⟨_,_,encoded,fun n numbered => .inl ?_⟩
        rw [parse_stamped numbered,content_stamped]
        exact member
      · exact ih (start.trans (Nat.le_succ _)) ran frame' sent
    · next absent =>
      simp only [returned,encode_at,wire_eq_ok] at ran
      obtain ⟨frame,encoded,others,ran,rfl⟩ := ran
      intro frame' sent
      rcases List.mem_cons.mp sent with same | sent
      · cases same
        refine ⟨_,_,encoded,fun n numbered => .inr ⟨msg_type_stamped ..,fun next parsed i low high => ?_⟩⟩
        rw [parse_stamped numbered] at low
        rw [parse_gap_fill parsed] at high
        obtain ⟨inside,gone⟩ := next_journaled low high
        exact ⟨let_go i (start.trans low) inside gone,by rw [kept.top]; exact bound i (start.trans low) inside⟩
      · refine ih ?_ ran frame' sent
        split
        · next entry found =>
          have bounds : sequence ≤ entry.1 ∧ entry.1 ≤ last := by simpa using List.find?_some found
          exact start.trans bounds.1
        · exact start'

theorem replay_requested_ok (ran : (FixSession.replay_requested message timestamp now_millis).run s = .ok actions t) :
    t = { s with snapshot := { s.snapshot with last_sent_millis := now_millis } } ∧
    ∃ first requested last copies, parse message 7 = some first ∧ parse message 16 = some requested ∧
      last = (if requested = 0 then s.snapshot.outgoing_sequence - 1 else min requested (s.snapshot.outgoing_sequence - 1)) ∧
      first ≠ 0 ∧ first ≤ min (last + 1) usize_max ∧
      s.replay timestamp last (last + 1 - first) first = .ok copies ∧ actions = copies ++ [.Persist] := by
  simp only [FixSession.replay_requested,returned,not_or,not_lt,gt_iff_lt] at ran
  obtain ⟨first,begins,requested,ends,⟨positive,start⟩,copies,ran,rfl,rfl⟩ := ran
  exact ⟨rfl,first,requested,_,copies,begins,ends,rfl,positive,start,ran,rfl⟩

theorem replay_requested_turn (kept : Kept log s.snapshot) (request : message.msg_type = "2")
    (let_go : ∀ i, LetGo message s.snapshot i → gaps i)
    (ran : (FixSession.replay_requested message timestamp now_millis).run s = .ok actions t) :
    Turn log gaps actions t.snapshot log := by
  obtain ⟨rfl,first,requested,last,copies,begins,ends,same,positive,start,copied,rfl⟩ := replay_requested_ok ran
  refine ⟨.refl log,{ kept with },fun frame member => ?_⟩
  have sent : .Send frame ∈ copies := by simpa using member
  have bounds (i : Nat) (low : first ≤ i) (high : i ≤ last) :
      i < s.snapshot.outgoing_sequence ∧ (requested = 0 ∨ i ≤ requested) := by
    rw [same] at high
    split_ifs at high with all <;> omega
  refine replay_written kept (fun i low high => (bounds i low high).1) le_rfl start (fun i low high gone => ?_) copied frame sent
  obtain ⟨was_sent,asked⟩ := bounds i low high
  exact let_go i ⟨⟨request,first,requested,begins,ends,low,asked⟩,was_sent,gone⟩

end Sending

/-! ### What a message in its turn does -/

/-- The next number is expected, and of what was sent or is held nothing changed. -/
structure Advances (s : FixSession) (next : Nat) (t : FixSession) : Prop where
  incoming : t.snapshot.incoming_sequence = next
  outgoing : t.snapshot.outgoing_sequence = s.snapshot.outgoing_sequence
  journal : t.snapshot.journal = s.snapshot.journal
  pending : t.snapshot.pending_inbound = s.snapshot.pending_inbound
  decoder : t.decoder = s.decoder

/-- The messages that a call gives to the application. -/
def applications (actions : List SessionAction) : List FixMessage :=
  actions.filterMap fun
    | .Application message => some message
    | _ => none

@[simp] theorem applications_append (actions later : List SessionAction) :
    applications (actions ++ later) = applications actions ++ applications later := List.filterMap_append

/-- The ways a message in its turn is processed: it is noted, answered by a message of the session, answered by sending
    again, passes over a gap, or goes to the application. -/
inductive Processed (message : FixMessage) (timestamp : String) (now_millis : Nat) (s : FixSession) :
    List SessionAction → FixSession → Prop
  | noted {actions : List SessionAction} {t : FixSession} : ¬ IsApplication message → message.msg_type ≠ "4" →
    (∀ frame, .Send frame ∉ actions) → applications actions = [] →
    Advances s (s.snapshot.incoming_sequence + 1) t → Processed message timestamp now_millis s actions t
  | answered {answer : FixMessage} {journal : Bool} {sent more : List SessionAction} {u t : FixSession} :
    ¬ IsApplication message → message.msg_type ≠ "4" →
    (send_new answer timestamp now_millis journal none).run u = .ok sent t →
    answer.msg_type = "0" ∨ answer.msg_type = "5" → Advances s (s.snapshot.incoming_sequence + 1) u →
    (∀ frame, .Send frame ∉ more) → applications more = [] → Processed message timestamp now_millis s (sent ++ more) t
  | sent_again {actions : List SessionAction} {u t : FixSession} : message.msg_type = "2" →
    (replay_requested message timestamp now_millis).run u = .ok actions t →
    Advances s (s.snapshot.incoming_sequence + 1) u → Processed message timestamp now_millis s actions t
  | filled {next : Nat} {t : FixSession} : message.msg_type = "4" → parse message 36 = some next →
    s.snapshot.incoming_sequence < next → Advances s next t → Processed message timestamp now_millis s [] t
  | delivered {t : FixSession} : IsApplication message → Advances s (s.snapshot.incoming_sequence + 1) t →
    Processed message timestamp now_millis s [.Application message] t

@[simp] theorem applications_send (frame : List UInt8) (actions : List SessionAction) :
    applications (.Send frame :: actions) = applications actions := rfl

theorem replay_silent {s : FixSession} {timestamp : String} {last rounds : Nat} {actions : List SessionAction}
    (ran : s.replay timestamp last rounds sequence = .ok actions) : applications actions = [] := by
  induction rounds generalizing sequence actions with
  | zero =>
    obtain rfl := except_pure_eq_ok.mp ran
    rfl
  | succ rounds ih =>
    rw [replay] at ran
    split_ifs at ran
    · obtain rfl := except_pure_eq_ok.mp ran
      rfl
    split at ran
    · simp only [returned] at ran
      obtain ⟨_,_,_,_,_,_,_,ran,rfl⟩ := ran
      rw [applications_send]
      exact ih ran
    · simp only [returned] at ran
      obtain ⟨_,_,_,ran,rfl⟩ := ran
      rw [applications_send]
      exact ih ran

section Processing
variable {log log' : Log FixMessage} {gaps gaps' : Nat → Prop} {message : FixMessage}
  {s t u : FixSession} {actions : List SessionAction} {timestamp : String} {now_millis : Nat}

theorem process_cases (ran : (process_in_sequence message timestamp now_millis).run s = .ok actions t) :
    Processed message timestamp now_millis s actions t := by
  simp only [process_in_sequence,returned] at ran
  obtain ⟨next,added,ran⟩ := ran
  obtain ⟨rfl,_⟩ := checked_add_eq_some.mp added
  have session {text : String} (same : message.msg_type = text) (member : text ∈ ["A","0","1","2","4","5"]) :
      ¬ IsApplication message := fun application => application (same ▸ member)
  split at ran
  · next type =>
    simp only [returned] at ran
    obtain ⟨_,rfl,rfl⟩ := ran
    exact .noted (session type (by decide)) (by rw [type]; decide) (by simp) rfl ⟨rfl,rfl,rfl,rfl,rfl⟩
  · next type =>
    simp only [returned] at ran
    obtain ⟨rfl,rfl⟩ := ran
    refine .noted (session type (by decide)) (by rw [type]; decide) (by simp) ?_ ⟨rfl,rfl,rfl,rfl,rfl⟩
    cases message.value 112 <;> rfl
  · next type =>
    rw [← List.append_nil actions]
    refine .answered (session type (by decide)) (by rw [type]; decide) ran ?_ ⟨rfl,rfl,rfl,rfl,rfl⟩ (by simp) rfl
    cases message.value 112 <;> exact .inl rfl
  · next type => exact .sent_again type ran ⟨rfl,rfl,rfl,rfl,rfl⟩
  · next type =>
    simp only [returned,not_lt] at ran
    obtain ⟨next,parsed,further,rfl,rfl⟩ := ran
    exact .filled type parsed further ⟨rfl,rfl,rfl,rfl,rfl⟩
  · next type =>
    simp only [returned] at ran
    obtain ⟨output,_,ran,rfl,rfl⟩ := ran
    exact .answered (session type (by decide)) (by rw [type]; decide) ran (.inr rfl) ⟨rfl,rfl,rfl,rfl,rfl⟩ (by simp) rfl
  · next logon heartbeat test request fill logout =>
    cases ran
    refine .delivered ?_ ⟨rfl,rfl,rfl,rfl,rfl⟩
    simp only [IsApplication,List.mem_cons,List.not_mem_nil,or_false,not_or]
    exact ⟨logon,heartbeat,test,request,fill,logout⟩

/-- A call that sends on behalf of the session: nothing for the application is new in the log. -/
def Replies (log : Log FixMessage) (gaps : Nat → Prop) (actions : List SessionAction) (t : FixSession) : Prop :=
  ∃ log', Turn log gaps actions t.snapshot log' ∧ ∀ e ∈ log'.entries, IsApplication e.2 → e ∈ log.entries

/-- The messages that the session numbers itself. -/
def IsSession (message : FixMessage) : Prop := message.msg_type ∈ ["A","0","1","2","5"]

theorem IsSession.plain (session : IsSession message) : message.msg_type ≠ "4" := fun fill => by
  rw [IsSession,fill] at session
  exact absurd session (by decide)

theorem IsSession.not_application (session : IsSession message) : ¬ IsApplication message := fun application => by
  simp only [IsSession,List.mem_cons,List.not_mem_nil,or_false] at session
  simp only [IsApplication,List.mem_cons,List.not_mem_nil,or_false,not_or] at application
  tauto

theorem send_new_replies {journal : Bool} (kept : Kept log s.snapshot) (session : IsSession message)
    (ran : (send_new message timestamp now_millis journal key).run s = .ok actions t) : Replies log gaps actions t := by
  refine ⟨_,send_new_turn kept session.plain ran,fun e member application => ?_⟩
  rcases Log.mem_push.mp member with old | rfl
  · exact old
  · exact absurd application session.not_application

theorem replies_still (kept : Kept log s.snapshot) (outgoing : t.snapshot.outgoing_sequence = s.snapshot.outgoing_sequence)
    (journal : t.snapshot.journal = s.snapshot.journal) (silent : ∀ frame, .Send frame ∉ actions) :
    Replies log gaps actions t :=
  ⟨log,turn_still kept outgoing journal silent,fun _ member _ => member⟩

/-- A message may be processed under number `n`: it carries it, or stands for a message of the session. -/
def Due (log : Log FixMessage) (gaps : Nat → Prop) (message : FixMessage) (n : Nat) : Prop :=
  parse message 34 = some n ∧ Carries log gaps message ∨
  message = FixMessage.new "0" ∧ ∃ x, (n,x) ∈ log.entries ∧ ¬ IsApplication x

/-- The number and the content of a message that came. -/
def numbered (message : FixMessage) : Nat × FixMessage := ((parse message 34).getD 0,content message)

theorem Due.grow {n : Nat} (due : Due log gaps message n) (grows : log.Grows log') (more : ∀ n, gaps n → gaps' n) :
    Due log' gaps' message n := by
  rcases due with ⟨parsed,carries⟩ | ⟨same,x,member,session⟩
  · exact .inl ⟨parsed,carries.grow grows more⟩
  · exact .inr ⟨same,x,grows.mem member,session⟩

/-- A message that is not a gap fill is what the log has under its number. -/
theorem Due.original {n : Nat} (due : Due log gaps message n) (type : message.msg_type ≠ "4") :
    ∃ x, (n,x) ∈ log.entries ∧ (IsApplication x ↔ IsApplication message) ∧
      (IsApplication message → numbered message = (n,x)) := by
  rcases due with ⟨parsed,carries⟩ | ⟨rfl,x,member,session⟩
  · rcases carries n parsed with original | ⟨fill,_⟩
    · exact ⟨_,original,Iff.rfl,fun _ => by rw [numbered,parsed]; rfl⟩
    · exact absurd fill type
  · have no : ¬ IsApplication (FixMessage.new "0") := by decide
    exact ⟨x,member,iff_of_false session no,fun application => absurd application no⟩

end Processing

/-! ### What is received -/

/-- A session that has taken the log of its peer so far, and holds what came early. -/
structure Ready (peer : Log FixMessage) (lost : Nat → Prop) (received : List (Nat × FixMessage)) (snapshot : SessionSnapshot) :
    Prop where
  taken : Taken IsApplication peer lost snapshot.incoming_sequence received
  held : ∀ k message, snapshot.pending_inbound.get? k = some message → message.msg_type ≠ "2" ∧ Due peer lost message k

/-- A part of a call that serves both directions: it takes the log of the peer and sends on behalf of the session. -/
structure Serves (gaps : Nat → Prop) (peer : Log FixMessage) (lost : Nat → Prop) (s : FixSession)
    (actions : List SessionAction) (t : FixSession) : Prop where
  buffer : t.decoder.buffer = s.decoder.buffer
  ready : ∀ received, Ready peer lost received s.snapshot →
    Ready peer lost (received ++ (applications actions).map numbered) t.snapshot
  replies : ∀ log, Kept log s.snapshot → Replies log gaps actions t

section Receiving
variable {gaps lost : Nat → Prop} {peer : Log FixMessage} {message : FixMessage}
  {s t u : FixSession} {actions later : List SessionAction} {timestamp : String} {now_millis : Nat}

theorem Serves.trans (first : Serves gaps peer lost s actions u) (next : Serves gaps peer lost u later t) :
    Serves gaps peer lost s (actions ++ later) t := by
  refine ⟨next.buffer.trans first.buffer,fun received ready => ?_,fun log kept => ?_⟩
  · have after := next.ready _ (first.ready received ready)
    rwa [List.append_assoc,← List.map_append,← applications_append] at after
  · obtain ⟨log',turn,own⟩ := first.replies log kept
    obtain ⟨log'',turn',own'⟩ := next.replies log' turn.kept
    exact ⟨log'',turn.trans turn',fun e member application => own e (own' e member application) application⟩

theorem Serves.after (next : Serves gaps peer lost u later t) (first : Serves gaps peer lost s [] u) :
    Serves gaps peer lost s later t := first.trans next

theorem serves_silent (buffer : t.decoder.buffer = s.decoder.buffer)
    (outgoing : t.snapshot.outgoing_sequence = s.snapshot.outgoing_sequence)
    (journal : t.snapshot.journal = s.snapshot.journal)
    (taken : ∀ received, Taken IsApplication peer lost s.snapshot.incoming_sequence received →
      Taken IsApplication peer lost t.snapshot.incoming_sequence (received ++ (applications actions).map numbered))
    (held : ∀ k message, t.snapshot.pending_inbound.get? k = some message →
      s.snapshot.pending_inbound.get? k = some message ∨ message.msg_type ≠ "2" ∧ Due peer lost message k)
    (silent : ∀ frame, .Send frame ∉ actions) : Serves gaps peer lost s actions t :=
  ⟨buffer,fun received ready => ⟨taken received ready.taken,fun k message found =>
    (held k message found).elim (ready.held k message) (fun due => due)⟩,
    fun _ kept => replies_still kept outgoing journal silent⟩

/-- A change to neither the numbers nor the journal. -/
theorem serves_still (buffer : t.decoder.buffer = s.decoder.buffer)
    (incoming : t.snapshot.incoming_sequence = s.snapshot.incoming_sequence)
    (outgoing : t.snapshot.outgoing_sequence = s.snapshot.outgoing_sequence)
    (journal : t.snapshot.journal = s.snapshot.journal)
    (held : ∀ k message, t.snapshot.pending_inbound.get? k = some message →
      s.snapshot.pending_inbound.get? k = some message ∨ message.msg_type ≠ "2" ∧ Due peer lost message k)
    (silent : ∀ frame, .Send frame ∉ actions) (none_given : applications actions = []) :
    Serves gaps peer lost s actions t := by
  refine serves_silent buffer outgoing journal (fun received taken => ?_) held silent
  rw [none_given,List.map_nil,List.append_nil,incoming]
  exact taken

theorem Serves.refl (s : FixSession) : Serves gaps peer lost s [] s :=
  serves_still rfl rfl rfl rfl (fun _ _ found => .inl found) (by simp) rfl

theorem send_new_serves {journal : Bool}
    (ran : (send_new message timestamp now_millis journal key).run s = .ok actions t) (session : IsSession message) :
    Serves gaps peer lost s actions t := by
  refine ⟨?_,fun received ready => ?_,fun log kept => send_new_replies kept session ran⟩
  all_goals obtain ⟨frame,_,rfl,rfl⟩ := send_new_ok ran
  · rfl
  · rw [applications_send]
    simpa [applications] using ⟨ready.taken,ready.held⟩

theorem replay_requested_serves (request : message.msg_type = "2") (let_go : ∀ i, LetGo message s.snapshot i → gaps i)
    (ran : (replay_requested message timestamp now_millis).run s = .ok actions t) : Serves gaps peer lost s actions t := by
  refine ⟨?_,fun received ready => ?_,fun log kept => ⟨log,replay_requested_turn kept request let_go ran,fun _ member _ => member⟩⟩
  all_goals obtain ⟨rfl,_,_,_,copies,_,_,_,_,_,copied,rfl⟩ := replay_requested_ok ran
  · rfl
  · rw [applications_append,replay_silent copied]
    simpa [applications] using ⟨ready.taken,ready.held⟩

/-- Processing a message takes its number, or the numbers that it passes over, and sends as a call may. -/
theorem process_serves (plain : ∀ e ∈ peer.entries, e.2.msg_type ≠ "4")
    (ran : (process_in_sequence message timestamp now_millis).run s = .ok actions t)
    (due : Due peer lost message s.snapshot.incoming_sequence) (let_go : ∀ i, LetGo message s.snapshot i → gaps i) :
    Serves gaps peer lost s actions t := by
  have advance {next : Nat} {u : FixSession} {given : List SessionAction} (advances : Advances s next u)
      (silent : ∀ frame, .Send frame ∉ given)
      (taken : ∀ received, Taken IsApplication peer lost s.snapshot.incoming_sequence received →
        Taken IsApplication peer lost next (received ++ (applications given).map numbered)) :
      Serves gaps peer lost s given u :=
    serves_silent (congrArg Decoder.buffer advances.decoder) advances.outgoing advances.journal (advances.incoming ▸ taken)
      (fun _ _ found => .inl (advances.pending ▸ found)) silent
  have pass {u : FixSession} {given : List SessionAction} (session : ¬ IsApplication message) (type : message.msg_type ≠ "4")
      (advances : Advances s (s.snapshot.incoming_sequence + 1) u) (silent : ∀ frame, .Send frame ∉ given)
      (none_given : applications given = []) : Serves gaps peer lost s given u := by
    refine advance advances silent fun received taken => ?_
    obtain ⟨x,member,same,_⟩ := due.original type
    rw [none_given,List.map_nil,List.append_nil]
    exact taken.pass member fun application => session (same.mp application)
  cases process_cases ran with
  | noted session type silent none_given advances => exact pass session type advances silent none_given
  | @answered answer _ _ _ _ _ session type sends kind advances silent none_given =>
    have own : IsSession answer := by
      rcases kind with kind | kind <;> rw [IsSession,kind] <;> decide
    have sent := (send_new_serves sends own).after (pass session type advances (by simp) rfl)
    exact sent.trans (serves_still rfl rfl rfl rfl (fun _ _ found => .inl found) silent none_given)
  | sent_again type sends advances =>
    refine (replay_requested_serves type (fun i gone => let_go i ?_) sends).after
      (pass (fun application => application (by rw [type]; decide)) (by rw [type]; decide) advances (by simp) rfl)
    obtain ⟨asks,was_sent,gone⟩ := gone
    exact ⟨asks,advances.outgoing ▸ was_sent,advances.journal ▸ gone⟩
  | filled type parsed further advances =>
    refine advance advances (by simp) fun received taken => ?_
    rw [applications,List.filterMap_nil,List.map_nil,List.append_nil]
    rcases due with ⟨here,carries⟩ | ⟨rfl,_⟩
    · rcases carries _ here with original | ⟨_,let_go⟩
      · exact absurd type (plain _ original)
      · exact taken.fill further.le (let_go _ parsed)
    · exact absurd type (by decide)
  | delivered application advances =>
    obtain ⟨x,member,same,number⟩ := due.original fun fill => application (by rw [fill]; decide)
    refine advance advances (by simp) fun received taken => ?_
    have last : (applications [.Application message]).map numbered = [(s.snapshot.incoming_sequence,x)] := by
      rw [← number application]
      rfl
    rw [last]
    exact taken.deliver member (same.mpr application)

theorem process_pending_serves {rounds : Nat} (plain : ∀ e ∈ peer.entries, e.2.msg_type ≠ "4")
    (ready : Ready peer lost received s.snapshot)
    (ran : (process_pending timestamp now_millis rounds).run s = .ok actions t) : Serves gaps peer lost s actions t := by
  induction rounds generalizing s actions received with
  | zero =>
    cases ran
    exact .refl _
  | succ rounds ih =>
    simp only [process_pending,returned] at ran
    split at ran
    · cases ran
      exact .refl _
    · next message found =>
      simp only [returned] at ran
      obtain ⟨first,u,processed,others,_,ran,rfl,rfl⟩ := ran
      obtain ⟨other,due⟩ := ready.held _ _ found
      have second : Serves gaps peer lost _ first u :=
        process_serves plain processed due (fun i let_go => absurd let_go.1.1 other)
      have taken : Serves gaps peer lost s first u := by
        exact second.after (serves_still rfl rfl rfl rfl (fun _ _ held => .inl (OrdMap.of_erase held)) (by simp) rfl)
      exact taken.trans (ih (taken.ready _ ready) ran)

theorem accept_serves (plain : ∀ e ∈ peer.entries, e.2.msg_type ≠ "4")
    (due : Due peer lost message s.snapshot.incoming_sequence)
    (let_go : ∀ i, LetGo message s.snapshot i → gaps i)
    (ready : Ready peer lost received s.snapshot) (ran : (accept message timestamp now_millis).run s = .ok actions t) :
    Serves gaps peer lost s actions t := by
  simp only [accept,returned] at ran
  obtain ⟨first,u,processed,others,v,waited,rfl,rfl⟩ := ran
  have taken : Serves gaps peer lost s first u := process_serves plain processed due let_go
  have more : Serves gaps peer lost u others v := process_pending_serves plain (taken.ready _ ready) waited
  exact (taken.trans more).trans (serves_still rfl rfl rfl rfl (fun _ _ found => .inl found) (by simp) rfl)

theorem hold_serves (parsed : parse message 34 = some sequence) (carries : Carries peer lost message)
    (let_go : ∀ i, LetGo message s.snapshot i → gaps i)
    (ran : (hold message sequence timestamp now_millis).run s = .ok actions t) : Serves gaps peer lost s actions t := by
  simp only [hold,returned] at ran
  obtain ⟨_,answer,u,answered,ran⟩ := ran
  have first : Serves gaps peer lost s answer u := by
    rw [answer_early] at answered
    split_ifs at answered with request
    · exact replay_requested_serves request let_go answered
    · obtain ⟨rfl,rfl⟩ := pure_eq_ok.mp answered
      exact .refl _
  have due : (queued message).msg_type ≠ "2" ∧ Due peer lost (queued message) sequence := by
    rw [queued]
    split_ifs with request
    · refine ⟨by decide,.inr ⟨rfl,?_⟩⟩
      rcases carries _ parsed with original | ⟨fill,_⟩
      · exact ⟨_,original,fun application => application (by rw [msg_type_content,request]; decide)⟩
      · exact absurd (request.symm.trans fill) (by decide)
    · exact ⟨request,.inl ⟨parsed,carries⟩⟩
  have held (k : Nat) (other : FixMessage)
      (found : (if u.snapshot.pending_inbound.contains sequence then u.snapshot.pending_inbound
        else u.snapshot.pending_inbound.insert sequence (queued message)).get? k = some other) :
      u.snapshot.pending_inbound.get? k = some other ∨ other.msg_type ≠ "2" ∧ Due peer lost other k := by
    split_ifs at found with there
    · exact .inl found
    · exact OrdMap.of_insert found (.inr due) fun _ _ => .inl
  split at ran
  · cases ran
    exact first.trans (serves_still rfl rfl rfl rfl held (by simp) rfl)
  · simp only [returned] at ran
    obtain ⟨asked,_,sent,rfl,rfl⟩ := ran
    have last : Serves gaps peer lost _ asked _ := send_new_serves sent (by
      change "2" ∈ _
      decide)
    exact first.trans (last.after (serves_still rfl rfl rfl rfl held (by simp) rfl))

theorem receive_serves (plain : ∀ e ∈ peer.entries, e.2.msg_type ≠ "4") (carries : Carries peer lost message)
    (let_go : ∀ i, LetGo message s.snapshot i → gaps i)
    (ready : Ready peer lost received s.snapshot) (ran : (receive message timestamp now_millis).run s = .ok actions t) :
    Serves gaps peer lost s actions t := by
  simp only [receive,returned] at ran
  obtain ⟨_,sequence,parsed,ran⟩ := ran
  split_ifs at ran with early late copy
  · exact hold_serves parsed carries let_go ran
  · cases ran
    exact .refl _
  · exact (throw_eq_ok.mp ran).elim
  · have turn : sequence = s.snapshot.incoming_sequence := by omega
    exact accept_serves plain (.inl ⟨turn ▸ parsed,carries⟩) let_go ready ran

/-- The messages of a read, each with the state that it was received in. -/
def hear (timestamp : String) (now_millis : Nat) : FixSession → List FixMessage → List (FixMessage × SessionSnapshot)
  | _,[] => []
  | s,message :: messages => (message,s.snapshot) ::
    match (receive message timestamp now_millis).run s with
    | .ok _ t => hear timestamp now_millis t messages
    | .error _ _ => []

theorem receive_all_serves {messages : List FixMessage} (plain : ∀ e ∈ peer.entries, e.2.msg_type ≠ "4")
    (carry : ∀ message ∈ messages, Carries peer lost message)
    (ran : (receive_all timestamp now_millis messages).run s = .ok actions t)
    (let_go : ∀ e ∈ hear timestamp now_millis s messages, ∀ i, LetGo e.1 e.2 i → gaps i)
    (ready : Ready peer lost received s.snapshot) : Serves gaps peer lost s actions t := by
  induction messages generalizing s actions received with
  | nil =>
    cases ran
    exact .refl _
  | cons message messages ih =>
    simp only [receive_all,returned] at ran
    obtain ⟨first,u,heard,others,_,ran,rfl,rfl⟩ := ran
    obtain ⟨carries,carry⟩ := List.forall_mem_cons.mp carry
    rw [hear,heard,List.forall_mem_cons] at let_go
    have step : Serves gaps peer lost s first u := receive_serves plain carries let_go.1 ready heard
    exact step.trans (ih carry ran let_go.2 (step.ready _ ready))

end Receiving
end Bunting.Simfix
