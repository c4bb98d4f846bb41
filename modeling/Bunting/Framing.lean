import Mathlib.Tactic

/-!
Framing: a stream of bytes cut into frames while it arrives. A framer reads the
length of the first frame off a buffer, from the bytes of that frame alone. A
decoder that keeps the bytes of an unfinished frame finds the same frames
however the bytes come, as long as the framer waits at every place where a chunk
ends.
-/

namespace Framing
variable {B E : Type}

/-- Reads the length of the first frame; `none` while the frame is not all there. -/
structure Framer (B E : Type) where
  first : List B → Except E (Option Nat)
  empty : first [] = .ok none
  reads : ∀ buffer n, first buffer = .ok (some n) ↔ n ≤ buffer.length ∧ first (buffer.take n) = .ok (some n)

namespace Framer
variable {F : Framer B E} {f g buffer rest rest' x y : List B} {frames frames' chunks : List (List B)} {n : Nat}

/-- One frame and no more. -/
def Frame (F : Framer B E) (f : List B) : Prop := F.first f = .ok (some f.length)

theorem Frame.ne_nil (framed : F.Frame f) : f ≠ [] := by
  rintro rfl
  rw [Frame,F.empty] at framed
  cases framed

theorem Frame.first (framed : F.Frame f) (more : List B) : F.first (f ++ more) = .ok (some f.length) :=
  (F.reads _ _).mpr ⟨by simp,by rw [List.take_left]; exact framed⟩

theorem frame_of_first (found : F.first buffer = .ok (some n)) : n ≤ buffer.length ∧ F.Frame (buffer.take n) := by
  obtain ⟨bound,framed⟩ := (F.reads _ _).mp found
  refine ⟨bound,?_⟩
  rw [Frame,List.length_take,min_eq_left bound]
  exact framed

theorem Frame.unique (framed : F.Frame f) (framed' : F.Frame g) (same : f ++ x = g ++ y) : f = g ∧ x = y := by
  have first := framed.first x
  rw [same,framed'.first y,Except.ok.injEq,Option.some.injEq] at first
  exact List.append_inj same first.symm

/-! ### Cutting a buffer -/

/-- A buffer cut into frames, with the bytes of an unfinished one at its end. -/
structure Cuts (F : Framer B E) (buffer : List B) (frames : List (List B)) (rest : List B) : Prop where
  bytes : buffer = frames.flatten ++ rest
  framed : ∀ f ∈ frames, F.Frame f
  waits : F.first rest = .ok none

theorem cuts_of_waits (waits : F.first buffer = .ok none) : F.Cuts buffer frames rest ↔ frames = [] ∧ rest = buffer := by
  constructor
  · rintro ⟨bytes,framed,_⟩
    cases frames with
    | nil => exact ⟨rfl,bytes.symm⟩
    | cons f frames =>
      have first := (framed f List.mem_cons_self).first (frames.flatten ++ rest)
      rw [← List.append_assoc,← List.flatten_cons,← bytes,waits] at first
      cases first
  · rintro ⟨rfl,rfl⟩
    exact ⟨rfl,fun _ member => (nomatch member),waits⟩

theorem cuts_of_first (found : F.first buffer = .ok (some n)) :
    F.Cuts buffer frames rest ↔ ∃ later, frames = buffer.take n :: later ∧ F.Cuts (buffer.drop n) later rest := by
  obtain ⟨bound,head⟩ := frame_of_first found
  have split := (List.take_append_drop n buffer).symm
  constructor
  · rintro ⟨bytes,framed,waits⟩
    cases frames with
    | nil =>
      rw [List.flatten_nil,List.nil_append] at bytes
      rw [← bytes,found] at waits
      cases waits
    | cons f frames =>
      rw [List.flatten_cons,List.append_assoc] at bytes
      obtain ⟨same,tail⟩ := head.unique (framed f List.mem_cons_self) (split.symm.trans bytes)
      exact ⟨frames,by rw [same],tail,fun g member => framed g (List.mem_cons_of_mem _ member),waits⟩
  · rintro ⟨later,rfl,bytes,framed,waits⟩
    refine ⟨?_,List.forall_mem_cons.mpr ⟨head,framed⟩,waits⟩
    rw [List.flatten_cons,List.append_assoc,← bytes]
    exact split

theorem not_cuts_of_error {e : E} (failed : F.first buffer = .error e) : ¬ F.Cuts buffer frames rest := by
  rintro ⟨bytes,framed,waits⟩
  cases frames with
  | nil =>
    rw [List.flatten_nil,List.nil_append] at bytes
    rw [← bytes,failed] at waits
    cases waits
  | cons f frames =>
    have first := (framed f List.mem_cons_self).first (frames.flatten ++ rest)
    rw [← List.append_assoc,← List.flatten_cons,← bytes,failed] at first
    cases first

/-- Whole frames at the front are cut off first. -/
theorem Cuts.after (cuts : F.Cuts (frames.flatten ++ buffer) frames' rest) (framed : ∀ f ∈ frames, F.Frame f) :
    ∃ later, frames' = frames ++ later ∧ F.Cuts buffer later rest := by
  induction frames generalizing frames' with
  | nil => exact ⟨frames',rfl,cuts⟩
  | cons f frames ih =>
    obtain ⟨head,framed⟩ := List.forall_mem_cons.mp framed
    rw [List.flatten_cons,List.append_assoc] at cuts
    obtain ⟨others,rfl,tail⟩ := (cuts_of_first (head.first _)).mp cuts
    rw [List.drop_left] at tail
    obtain ⟨later,rfl,last⟩ := ih tail framed
    exact ⟨later,by rw [List.take_left,List.cons_append],last⟩

theorem Cuts.whole (cuts : F.Cuts frames.flatten frames' rest) (framed : ∀ f ∈ frames, F.Frame f) :
    frames' = frames ∧ rest = [] := by
  rw [← List.append_nil frames.flatten] at cuts
  obtain ⟨later,rfl,last⟩ := cuts.after framed
  obtain ⟨rfl,rfl⟩ := (cuts_of_waits F.empty).mp last
  exact ⟨List.append_nil frames,rfl⟩

/-- A frame whose end is not in doubt: a buffer that begins with it, or with a part of it, is cut there and nowhere else. -/
def Sealed (F : Framer B E) (f : List B) : Prop :=
  ∀ more buffer found, buffer ≠ [] → buffer <+: f ++ more → F.first buffer = .ok found →
    found = if f.length ≤ buffer.length then some f.length else none

/-- Of a stream of sealed frames only whole ones are cut off. -/
theorem Cuts.of_sealed {flight : List (List B)} (cuts : F.Cuts buffer frames rest) (whole : ∀ f ∈ flight, F.Sealed f)
    (same : buffer ++ x = flight.flatten) : ∃ later, flight = frames ++ later ∧ rest ++ x = later.flatten := by
  obtain ⟨bytes,framed,_⟩ := cuts
  induction frames generalizing buffer flight with
  | nil =>
    rw [List.flatten_nil,List.nil_append] at bytes
    exact ⟨flight,rfl,bytes ▸ same⟩
  | cons f frames ih =>
    obtain ⟨head,framed⟩ := List.forall_mem_cons.mp framed
    rw [List.flatten_cons,List.append_assoc] at bytes
    subst bytes
    have some_bytes : f ++ (frames.flatten ++ rest) ≠ [] := fun nothing => head.ne_nil (List.append_eq_nil_iff.mp nothing).1
    cases flight with
    | nil => exact absurd (List.append_eq_nil_iff.mp same).1 some_bytes
    | cons g flight =>
      obtain ⟨sealed,others⟩ := List.forall_mem_cons.mp whole
      rw [List.flatten_cons] at same
      have first := sealed flight.flatten _ _ some_bytes ⟨x,same⟩ (head.first _)
      split_ifs at first with enough
      rw [List.append_assoc] at same
      obtain ⟨rfl,tail⟩ := List.append_inj same (Option.some.inj first)
      obtain ⟨later,rfl,left⟩ := ih others tail rfl framed
      exact ⟨later,rfl,left⟩

/-! ### Chunks -/

/-- How many bytes of an unfinished frame there are after `n` bytes of a stream of frames. -/
def inside : List (List B) → Nat → Nat
  | [],_ => 0
  | f :: frames,n => if n < f.length then n else inside frames (n - f.length)

theorem inside_zero (frames : List (List B)) : inside frames 0 = 0 := by
  induction frames with
  | nil => rfl
  | cons f frames ih =>
    rw [inside,Nat.zero_sub,ih]
    exact ite_self 0

theorem inside_after (frames later : List (List B)) (n : Nat) :
    inside (frames ++ later) (frames.flatten.length + n) = inside later n := by
  induction frames with
  | nil => simp
  | cons f frames ih =>
    rw [List.cons_append,inside,List.flatten_cons,List.length_append,if_neg (by omega),← ih]
    congr 1
    omega

/-- The bytes of an unfinished frame at the front of a stream of frames. -/
def Partial (frames : List (List B)) (part : List B) : Prop :=
  part = [] ∨ ∃ f later, frames = f :: later ∧ part <+: f ∧ part.length < f.length

theorem split_stream (framed : ∀ f ∈ frames, F.Frame f) (same : buffer ++ rest = frames.flatten) :
    ∃ done todo part, frames = done ++ todo ∧ buffer = done.flatten ++ part ∧ part ++ rest = todo.flatten ∧
      part.length = inside frames buffer.length ∧ Partial todo part := by
  induction frames generalizing buffer with
  | nil =>
    rw [List.flatten_nil,List.append_eq_nil_iff] at same
    obtain ⟨rfl,rfl⟩ := same
    exact ⟨[],[],[],rfl,rfl,rfl,rfl,.inl rfl⟩
  | cons f frames ih =>
    rw [List.flatten_cons] at same
    by_cases short : buffer.length < f.length
    · have start : buffer <+: f :=
        List.prefix_of_prefix_length_le ⟨rest,same⟩ (List.prefix_append f frames.flatten) short.le
      exact ⟨[],f :: frames,buffer,rfl,rfl,same,by rw [inside,if_pos short],.inr ⟨f,frames,rfl,start,short⟩⟩
    · obtain ⟨later,rfl⟩ : f <+: buffer :=
        List.prefix_of_prefix_length_le (List.prefix_append f frames.flatten) ⟨rest,same⟩ (not_lt.mp short)
      rw [List.append_assoc,List.append_cancel_left_eq] at same
      obtain ⟨done,todo,part,rfl,rfl,bytes,length,unfinished⟩ :=
        ih (fun g member => framed g (List.mem_cons_of_mem _ member)) same
      refine ⟨f :: done,todo,part,rfl,by simp,bytes,?_,unfinished⟩
      have left : (f ++ (done.flatten ++ part)).length - f.length = (done.flatten ++ part).length := by simp
      rw [length,inside,if_neg short,left]

/-- A decoder takes the chunks in turn: it cuts off the frames that are whole and keeps the rest for the next chunk. -/
inductive Feeds (F : Framer B E) : List B → List (List B) → List (List B) → List B → Prop
  | done (buffer : List B) : Feeds F buffer [] [] buffer
  | push {buffer chunk rest left : List B} {chunks frames later : List (List B)} :
    F.Cuts (buffer ++ chunk) frames rest → Feeds F rest chunks later left → Feeds F buffer (chunk :: chunks) (frames ++ later) left

/-- The frames of the chunks are those of the bytes in one piece. -/
theorem Feeds.cuts (feeds : F.Feeds buffer chunks frames rest) (waits : F.first buffer = .ok none) :
    F.Cuts (buffer ++ chunks.flatten) frames rest := by
  induction feeds with
  | done buffer => exact (cuts_of_waits (by rwa [List.flatten_nil,List.append_nil])).mpr ⟨rfl,by simp⟩
  | push cuts _ ih =>
    obtain ⟨bytes,framed,waits⟩ := cuts
    obtain ⟨bytes',framed',waits'⟩ := ih waits
    refine ⟨?_,fun f member => ?_,waits'⟩
    · rw [List.flatten_cons,← List.append_assoc,bytes,List.append_assoc,bytes',List.flatten_append,List.append_assoc]
    · exact (List.mem_append.mp member).elim (framed f) (framed' f)

/-- Nothing can be cut off an unfinished frame. -/
theorem Cuts.of_partial (cuts : F.Cuts x frames' rest) (unfinished : Partial frames x) (framed : ∀ f ∈ frames, F.Frame f) :
    frames' = [] ∧ rest = x := by
  obtain ⟨bytes,framed',_⟩ := cuts
  cases frames' with
  | nil => exact ⟨rfl,bytes.symm⟩
  | cons g frames' =>
    exfalso
    have head := framed' g List.mem_cons_self
    rw [List.flatten_cons,List.append_assoc] at bytes
    rcases unfinished with rfl | ⟨f,later,rfl,⟨more,whole⟩,short⟩
    · exact head.ne_nil (List.append_eq_nil_iff.mp bytes.symm).1
    · rw [bytes,List.append_assoc] at whole
      obtain ⟨rfl,_⟩ := head.unique (framed f List.mem_cons_self) (y := []) (by rw [whole,List.append_nil])
      rw [bytes,List.length_append] at short
      omega

/-- The frames come out of the chunks exactly if the framer waits wherever a chunk ends. Whether it waits depends on how many
    bytes of the unfinished frame are there. -/
theorem feeds_iff {W : Nat → Prop} (zero : W 0)
    (waits : ∀ f, F.Frame f → ∀ part, part <+: f → part.length < f.length → (F.first part = .ok none ↔ W part.length))
    (framed : ∀ f ∈ frames, F.Frame f) (unfinished : Partial frames buffer)
    (same : buffer ++ chunks.flatten = frames.flatten) (here : W (inside frames buffer.length)) :
    F.Feeds buffer chunks frames [] ↔ ∀ taken ∈ chunks.inits, W (inside frames (buffer.length + taken.flatten.length)) := by
  induction chunks generalizing buffer frames with
  | nil =>
    rw [List.flatten_nil,List.append_nil] at same
    have nothing : buffer = [] := by
      rcases unfinished with rfl | ⟨f,later,rfl,_,short⟩
      · rfl
      · rw [same,List.flatten_cons,List.length_append] at short
        omega
    have no_frames : frames = [] := by
      cases frames with
      | nil => rfl
      | cons f later =>
        rw [nothing,List.flatten_cons] at same
        exact absurd (List.append_eq_nil_iff.mp same.symm).1 (framed f List.mem_cons_self).ne_nil
    subst nothing no_frames
    simp only [List.inits,List.mem_singleton,forall_eq]
    exact ⟨fun _ => here,fun _ => .done []⟩
  | cons chunk chunks ih =>
    rw [List.flatten_cons,← List.append_assoc] at same
    obtain ⟨done,todo,part,rfl,bytes,tail,length,unfinished'⟩ := split_stream framed same
    have framed' := fun f member => framed f (List.mem_append_right _ member)
    have complete := fun f member => framed f (List.mem_append_left _ member)
    have wait_iff : F.first part = .ok none ↔ W part.length := by
      rcases unfinished' with rfl | ⟨f,later,rfl,start,short⟩
      · simp [F.empty,zero]
      · exact waits f (framed' f List.mem_cons_self) part start short
    have position : inside todo part.length = part.length := by
      rw [bytes,List.length_append,inside_after] at length
      exact length.symm
    have ends : ∀ n, inside (done ++ todo) (buffer.length + (chunk.length + n)) = inside todo (part.length + n) := fun n => by
      have total := congrArg List.length bytes
      rw [List.length_append,List.length_append] at total
      rw [← inside_after done todo]
      congr 1
      omega
    have rest_iff : (∀ taken ∈ (chunk :: chunks).inits,
          W (inside (done ++ todo) (buffer.length + taken.flatten.length))) ↔
        ∀ taken ∈ chunks.inits, W (inside todo (part.length + taken.flatten.length)) := by
      simp only [List.inits_cons,List.forall_mem_cons,List.forall_mem_map,List.flatten_nil,List.length_nil,Nat.add_zero,
        List.flatten_cons,List.length_append,ends,here,true_and]
    rw [rest_iff]
    constructor
    · intro feeds
      generalize whole : done ++ todo = frames at feeds
      cases feeds with
      | push cuts feeds =>
        rw [bytes] at cuts
        obtain ⟨later,rfl,tails⟩ := cuts.after complete
        obtain ⟨rfl,rfl⟩ := tails.of_partial unfinished' framed'
        rw [List.append_nil,List.append_cancel_left_eq] at whole
        subst whole
        exact (ih framed' unfinished' tail (by rw [position]; exact wait_iff.mp tails.waits)).mp feeds
    · intro all
      have now : W part.length := by
        have first := all [] (by simp)
        rwa [List.flatten_nil,List.length_nil,Nat.add_zero,position] at first
      refine .push ⟨bytes,complete,wait_iff.mpr now⟩ ?_
      exact (ih framed' unfinished' tail (by rw [position]; exact now)).mpr all

end Framer
end Framing
