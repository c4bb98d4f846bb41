import Mathlib.Tactic

/-!
Byte strings and what they stand for: text as UTF-8, and numbers with the least
byte first.
-/

namespace Bytes

/-- The text a byte string is the UTF-8 of. -/
def from_utf8 (bytes : List UInt8) : Option String := String.fromUTF8? ⟨bytes.toArray⟩

def as_bytes (text : String) : List UInt8 := text.toUTF8.data.toList

theorem from_utf8_as_bytes (text : String) : from_utf8 (as_bytes text) = some text := by
  have valid : (ByteArray.mk text.toUTF8.data.toList.toArray).IsValidUTF8 := text.isValidUTF8
  rw [from_utf8,as_bytes,String.fromUTF8?,dif_pos valid]
  rfl

theorem as_bytes_ofList (text : List Char) : as_bytes (String.ofList text) = text.flatMap String.utf8EncodeChar := by
  have bytes : (String.ofList text).toUTF8 = text.utf8Encode := String.toByteArray_ofList
  rw [as_bytes,bytes,List.utf8Encode,List.data_toByteArray]

theorem utf8_digit {digit : Char} (ten : digit.isDigit = true) :
    ∃ byte : UInt8, String.utf8EncodeChar digit = [byte] ∧ 48 ≤ byte ∧ byte ≤ 57 := by
  have bounds : 48 ≤ digit.val.toNat ∧ digit.val.toNat ≤ 57 := by
    simpa [Char.isDigit,UInt32.le_iff_toNat_le] using ten
  refine ⟨UInt8.ofNat digit.val.toNat,if_pos (by omega),?_,?_⟩
  all_goals
    rw [UInt8.le_iff_toNat_le,UInt8.toNat_ofNat',Nat.mod_eq_of_lt (by omega)]
    first | exact bounds.1 | exact bounds.2

theorem digit_of_mem_bytes {n : Nat} {byte : UInt8} (member : byte ∈ as_bytes (toString n)) : 48 ≤ byte ∧ byte ≤ 57 := by
  rw [Nat.toString_eq_ofList_toDigits,as_bytes_ofList,List.mem_flatMap] at member
  obtain ⟨digit,inside,member⟩ := member
  obtain ⟨only,same,low,high⟩ := utf8_digit (Nat.isDigit_of_mem_toDigits (by decide) (by decide) inside)
  rw [same,List.mem_singleton] at member
  exact member ▸ ⟨low,high⟩

/-- The last `n` bytes of a number. -/
def to_le_bytes : Nat → Nat → List UInt8
  | 0,_ => []
  | n + 1,value => UInt8.ofNat value :: to_le_bytes n (value / 256)

def from_le_bytes : List UInt8 → Nat
  | [] => 0
  | byte :: bytes => byte.toNat + 256 * from_le_bytes bytes

def to_be_bytes (n value : Nat) : List UInt8 := (to_le_bytes n value).reverse
def from_be_bytes (bytes : List UInt8) : Nat := from_le_bytes bytes.reverse

@[simp] theorem length_to_le_bytes (n value : Nat) : (to_le_bytes n value).length = n := by
  induction n generalizing value with
  | zero => rfl
  | succ n ih => rw [to_le_bytes,List.length_cons,ih]

theorem from_to_le_bytes {n value : Nat} (fits : value < 256 ^ n) : from_le_bytes (to_le_bytes n value) = value := by
  induction n generalizing value with
  | zero => exact (Nat.lt_one_iff.mp fits).symm
  | succ n ih =>
    have rest : value / 256 < 256 ^ n := Nat.div_lt_of_lt_mul (by rwa [Nat.pow_succ'] at fits)
    rw [to_le_bytes,from_le_bytes,ih rest,UInt8.toNat_ofNat']
    exact Nat.mod_add_div value 256

theorem from_le_bytes_injective {xs ys : List UInt8} (length : xs.length = ys.length)
    (same : from_le_bytes xs = from_le_bytes ys) : xs = ys := by
  induction xs generalizing ys with
  | nil => exact (List.eq_nil_of_length_eq_zero length.symm).symm
  | cons x xs ih =>
    cases ys with
    | nil => cases length
    | cons y ys =>
      simp only [from_le_bytes] at same
      have small := x.toNat_lt
      have small' := y.toNat_lt
      have first : x = y := UInt8.toNat_inj.mp (by omega)
      rw [first,ih (by simpa using length) (by omega)]

/-! ### One byte changed -/

/-- The bytes differ in exactly one place. -/
def Changed (bytes changed : List UInt8) : Prop :=
  ∃ i old new, bytes[i]? = some old ∧ new ≠ old ∧ changed = bytes.set i new

section Changed
variable {a b bytes changed : List UInt8}

theorem Changed.length (change : Changed bytes changed) : changed.length = bytes.length := by
  obtain ⟨_,_,_,_,_,rfl⟩ := change
  exact List.length_set ..

theorem Changed.ne (change : Changed bytes changed) : changed ≠ bytes := by
  obtain ⟨i,old,new,was,other,rfl⟩ := change
  intro same
  have inside : i < bytes.length := (List.getElem?_eq_some_iff.mp was).1
  rw [← same,List.getElem?_set_self inside] at was
  exact other (Option.some.inj was)

theorem Changed.append (change : Changed (a ++ b) changed) :
    (∃ a', changed = a' ++ b ∧ Changed a a') ∨ ∃ b', changed = a ++ b' ∧ Changed b b' := by
  obtain ⟨i,old,new,was,other,rfl⟩ := change
  by_cases first : i < a.length
  · rw [List.getElem?_append_left first] at was
    exact .inl ⟨a.set i new,List.set_append_left _ _ first,i,old,new,was,other,rfl⟩
  · rw [List.getElem?_append_right (not_lt.mp first)] at was
    exact .inr ⟨b.set (i - a.length) new,List.set_append_right _ _ (not_lt.mp first),_,old,new,was,other,rfl⟩

end Changed

end Bytes
