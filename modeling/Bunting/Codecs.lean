import Bunting.Stateful
import Bunting.Bytes

/-!
Writers and readers of byte strings. A writer appends to an output and may fail
halfway; a reader takes bytes off the front of its input. `Codes` says that the
reader has the value back from what the writer wrote, whatever follows. Layouts
are put together by `Codes.next` and `Codes.last`.
-/

namespace Codecs
open Stateful Bytes
variable {ε α β : Type}

abbrev Writer (ε : Type) := EStateM ε (List UInt8)
abbrev Reader (ε : Type) := EStateM ε (List UInt8)

def Writer.bytes (bytes : List UInt8) : Writer ε Unit := modify (· ++ bytes)

/-- The next `count` bytes, or a failure if there are fewer. -/
def Reader.bytes (truncated : ε) (count : Nat) : Reader ε (List UInt8) := do
  let input ← get
  refuse (input.length < count) truncated
  set (input.drop count)
  pure (input.take count)

/-- A number of `n` bytes, the least byte first. -/
def Writer.le (n : Nat) {w : Nat} (value : BitVec w) : Writer ε Unit := Writer.bytes (to_le_bytes n value.toNat)

def Reader.le (truncated : ε) (n w : Nat) : Reader ε (BitVec w) := do
  let bytes ← Reader.bytes truncated n
  pure (BitVec.ofNat w (from_le_bytes bytes))

def Reader.many (read : Reader ε α) : Nat → Reader ε (List α)
  | 0 => pure []
  | count + 1 => do
    let item ← read
    let items ← many read count
    pure (item :: items)

/-! ### Matching writers and readers -/

/-- The writer appends, and what it wrote reads as `a`. -/
def Codes (w : Writer ε Unit) (r : Reader ε α) (a : α) : Prop :=
  ∀ out, ∃ bytes, (w.run out = .ok () (out ++ bytes) ∧ ∀ rest, r.run (bytes ++ rest) = .ok a rest) ∨
    ∃ e, w.run out = .error e (out ++ bytes)

section Rules
variable {w v : Writer ε Unit} {r : Reader ε α} {f : α → Reader ε β} {a : α} {b : β} {out out' : List UInt8}
  {e truncated : ε} {left : List UInt8}

theorem Codes.ok (codes : Codes w r a) (ran : w.run out = .ok () out') :
    ∃ bytes, out' = out ++ bytes ∧ ∀ rest, r.run (bytes ++ rest) = .ok a rest := by
  obtain ⟨bytes,⟨wrote,reads⟩ | ⟨e,failed⟩⟩ := codes out
  · rw [ran] at wrote
    cases wrote
    exact ⟨bytes,rfl,reads⟩
  · rw [ran] at failed
    cases failed

theorem Codes.done (a : α) : Codes (pure () : Writer ε Unit) (pure a) a :=
  fun out => ⟨[],.inl ⟨by simp,fun _ => rfl⟩⟩

/-- A field, and what comes after it. -/
theorem Codes.next (field : Codes w r a) (others : Codes v (f a) b) : Codes (w >>= fun _ => v) (r >>= f) b := by
  intro out
  obtain ⟨bytes,⟨wrote,reads⟩ | ⟨e,failed⟩⟩ := field out
  · obtain ⟨more,⟨wrote',reads'⟩ | ⟨e,failed⟩⟩ := others (out ++ bytes)
    · refine ⟨bytes ++ more,.inl ⟨?_,fun rest => ?_⟩⟩
      · rw [EStateM.run_bind,wrote,← List.append_assoc]
        exact wrote'
      · rw [EStateM.run_bind,List.append_assoc,reads]
        exact reads' rest
    · refine ⟨bytes ++ more,.inr ⟨e,?_⟩⟩
      rw [EStateM.run_bind,wrote,← List.append_assoc]
      exact failed
  · refine ⟨bytes,.inr ⟨e,?_⟩⟩
    rw [EStateM.run_bind,failed]

/-- The last field, and what the reader makes of it. -/
theorem Codes.read_as (field : Codes w r a) (made : f a = pure b) : Codes w (r >>= f) b := by
  intro out
  obtain ⟨bytes,⟨wrote,reads⟩ | ⟨e,failed⟩⟩ := field out
  · refine ⟨bytes,.inl ⟨wrote,fun rest => ?_⟩⟩
    rw [EStateM.run_bind,reads]
    exact congrArg (fun m => EStateM.run m rest) made
  · exact ⟨bytes,.inr ⟨e,failed⟩⟩

theorem Codes.last {g : α → β} (field : Codes w r a) : Codes w (r >>= fun x => pure (g x)) (g a) := field.read_as rfl

/-- What is checked before anything is written. -/
theorem Codes.refuse {c : Prop} [Decidable c] (codes : ¬ c → Codes w r a) :
    Codes (Stateful.refuse c e >>= fun _ => w) r a := by
  intro out
  by_cases refused : c
  · exact ⟨[],.inr ⟨e,by rw [EStateM.run_bind,run_refuse,if_pos refused,List.append_nil]⟩⟩
  · rw [EStateM.run_bind,run_refuse,if_neg refused]
    exact codes refused out

/-- What is checked after it was read. -/
theorem Codes.checked {c : Prop} [Decidable c] (accepted : ¬ c) (codes : Codes w r a) :
    Codes w (Stateful.refuse c e >>= fun _ => r) a := by
  have passes : (Stateful.refuse c e : Reader ε PUnit) = pure () := if_neg accepted
  rwa [passes,pure_bind]

theorem Codes.bytes (bytes : List UInt8) :
    Codes (Writer.bytes bytes) (Reader.bytes truncated bytes.length) bytes := by
  refine fun out => ⟨bytes,.inl ⟨rfl,fun rest => ?_⟩⟩
  simp [Reader.bytes,run_refuse]

theorem Codes.le {n k : Nat} (width : k = 8 * n) (value : BitVec k) :
    Codes (Writer.le n value) (Reader.le truncated n k) value := by
  have read : Codes (Writer.bytes (to_le_bytes n value.toNat)) (Reader.bytes truncated n)
      (to_le_bytes n value.toNat) := by
    have codes : Codes _ (Reader.bytes truncated _) _ := Codes.bytes (to_le_bytes n value.toNat)
    rwa [length_to_le_bytes] at codes
  have fits : value.toNat < 256 ^ n := by
    have power : 256 ^ n = 2 ^ k := by rw [width,Nat.pow_mul]
    exact power ▸ value.isLt
  have last := read.last (g := fun bytes => BitVec.ofNat k (from_le_bytes bytes))
  rw [from_to_le_bytes fits,BitVec.ofNat_toNat,BitVec.setWidth_eq] at last
  exact last

/-! ### Groups -/

variable {write : α → Writer ε Unit} {items : List α}

theorem Codes.many (item : ∀ x ∈ items, Codes (write x) r x) : Codes (forM items write) (Reader.many r items.length) items := by
  induction items with
  | nil => exact .done []
  | cons x items ih =>
    rw [List.forM_cons]
    exact .next (item x List.mem_cons_self) (.last (ih fun y member => item y (List.mem_cons_of_mem _ member)))

/-- What a reader reads that cannot do without a byte is not empty. -/
theorem Codes.longer (codes : Codes w r a) (needs : r.run [] = .error e left)
    (ran : w.run out = .ok () out') : out.length < out'.length := by
  obtain ⟨bytes,rfl,reads⟩ := codes.ok ran
  have some_bytes : bytes ≠ [] := by
    rintro rfl
    have read := reads []
    rw [List.append_nil,needs] at read
    cases read
  have positive := List.length_pos_iff.mpr some_bytes
  rw [List.length_append]
  omega

theorem many_length (item : ∀ x ∈ items, Codes (write x) r x)
    (needs : r.run [] = .error e left) (ran : (forM items write).run out = .ok () out') :
    out.length + items.length ≤ out'.length := by
  induction items generalizing out with
  | nil =>
    cases ran
    simp
  | cons x items ih =>
    rw [List.forM_cons] at ran
    obtain ⟨⟨⟩,middle,started,ended⟩ := bind_eq_ok.mp ran
    have longer := (item x List.mem_cons_self).longer needs started
    have enough := ih (fun y member => item y (List.mem_cons_of_mem _ member)) ended
    rw [List.length_cons]
    omega

/-- A reader may refuse more items than there are bytes, if no item is empty. -/
theorem Codes.bounded (item : ∀ x ∈ items, Codes (write x) r x) (needs : r.run [] = .error e left) :
    Codes (forM items write) (do
      let input ← get
      Stateful.refuse (items.length > input.length) truncated
      Reader.many r items.length) items := by
  intro out
  obtain ⟨bytes,⟨wrote,reads⟩ | ⟨e,failed⟩⟩ := Codes.many item out
  · refine ⟨bytes,.inl ⟨wrote,fun rest => ?_⟩⟩
    have long := many_length item needs wrote
    have enough : ¬ items.length > (bytes ++ rest).length := by
      rw [List.length_append] at long ⊢
      omega
    simp only [EStateM.run_bind,EStateM.run_get,run_refuse,enough,if_false]
    exact reads rest
  · exact ⟨bytes,.inr ⟨e,failed⟩⟩

end Rules
end Codecs
