import Mathlib.Tactic
import Mathlib.Data.Prod.Lex
import Mathlib.Algebra.BigOperators.Group.List.Basic
import Mathlib.Algebra.Order.BigOperators.Group.List

/-!
Finite maps in key order: the entries as a sorted list with one entry a key. Two
maps with the same lookups are equal (`ext_get?`), and a total over the entries
moves by exactly the entry that an update replaces (`sum_insert`, `sum_erase`).
-/

universe u v w

/-- The entries of a finite map, strictly increasing in the key. -/
@[ext] structure OrdMap (K : Type u) (V : Type v) [LinearOrder K] where
  entries : List (K × V)
  sorted : entries.Pairwise (fun a b => a.1 < b.1)

/-- A finite set in order: a map to the one-element type. -/
abbrev OrdSet (K : Type u) [LinearOrder K] := OrdMap K Unit

namespace OrdMap
variable {K : Type u} {V : Type v} [LinearOrder K] {k : K} {x : V} {l : List (K × V)} {m : OrdMap K V} {j : K} {y : V}
  {W : Type w}

instance [DecidableEq V] : DecidableEq (OrdMap K V) := fun a b =>
  decidable_of_iff (a.entries = b.entries) OrdMap.ext_iff.symm

def empty : OrdMap K V := ⟨[],.nil⟩

instance : EmptyCollection (OrdMap K V) := ⟨empty⟩

def get? (m : OrdMap K V) (k : K) : Option V := (m.entries.find? (fun e => e.1 = k)).map Prod.snd
def contains (m : OrdMap K V) (k : K) : Bool := (m.get? k).isSome

/-- Puts an entry at its place in a sorted list, replacing the one at its key. -/
def insertEntries (k : K) (x : V) : List (K × V) → List (K × V)
  | [] => [(k,x)]
  | e :: rest =>
    if k < e.1 then (k,x) :: e :: rest else if k = e.1 then (k,x) :: rest else e :: insertEntries k x rest

theorem mem_insertEntries_imp {e : K × V} (member : e ∈ insertEntries k x l) :
    e = (k,x) ∨ e ∈ l := by
  induction l with
  | nil => simpa [insertEntries] using member
  | cons a rest ih =>
    simp only [insertEntries] at member
    split_ifs at member with less same
    · simpa using member
    · simp only [List.mem_cons] at member ⊢; tauto
    · simp only [List.mem_cons] at member ⊢
      rcases member with here | later
      · exact .inr (.inl here)
      · exact (ih later).imp_right .inr

theorem sorted_insertEntries (k : K) (x : V) (sorted : l.Pairwise (fun a b => a.1 < b.1)) :
    (insertEntries k x l).Pairwise (fun a b => a.1 < b.1) := by
  induction l with
  | nil => simp [insertEntries]
  | cons a rest ih =>
    obtain ⟨above,tail⟩ := List.pairwise_cons.mp sorted
    simp only [insertEntries]
    split_ifs with less same
    · refine List.pairwise_cons.mpr ⟨?_,sorted⟩
      intro e member
      rcases List.mem_cons.mp member with here | later
      · exact here ▸ less
      · exact less.trans (above e later)
    · exact List.pairwise_cons.mpr ⟨fun e member => same ▸ above e member,tail⟩
    · refine List.pairwise_cons.mpr ⟨?_,ih tail⟩
      intro e member
      rcases mem_insertEntries_imp member with new | old
      · rw [new]; exact lt_of_le_of_ne (not_lt.mp less) (Ne.symm same)
      · exact above e old

def insert (m : OrdMap K V) (k : K) (x : V) : OrdMap K V :=
  ⟨insertEntries k x m.entries,sorted_insertEntries k x m.sorted⟩
def erase (m : OrdMap K V) (k : K) : OrdMap K V :=
  ⟨m.entries.filter (fun e => e.1 ≠ k),m.sorted.filter _⟩
def retain (m : OrdMap K V) (p : K → V → Bool) : OrdMap K V :=
  ⟨m.entries.filter (fun e => p e.1 e.2),m.sorted.filter _⟩

def keys (m : OrdMap K V) : List K := m.entries.map Prod.fst
def values (m : OrdMap K V) : List V := m.entries.map Prod.snd
def size (m : OrdMap K V) : Nat := m.entries.length
def isEmpty (m : OrdMap K V) : Bool := m.entries.isEmpty
/-- The entry with the least key. -/
def first? (m : OrdMap K V) : Option (K × V) := m.entries.head?
/-- The entry with the greatest key. -/
def last? (m : OrdMap K V) : Option (K × V) := m.entries.getLast?
/-- The later of two entries with the same key stays. -/
def ofList (l : List (K × V)) : OrdMap K V := l.foldl (fun m e => m.insert e.1 e.2) empty
def mapValues {W : Type w} (f : K → V → W) (m : OrdMap K V) : OrdMap K W :=
  ⟨m.entries.map (fun e => (e.1,f e.1 e.2)),by simpa [List.pairwise_map] using m.sorted⟩

/-- Sets the value at a key, or removes the key. -/
def set (m : OrdMap K V) (k : K) : Option V → OrdMap K V
  | some x => m.insert k x
  | none => m.erase k

/-- Sets the value at the image of every key of another map. -/
def extend {L : Type w} [LinearOrder L] (m : OrdMap K V) (key : L → K) (n : OrdMap L V) : OrdMap K V :=
  n.entries.foldl (fun m e => m.insert (key e.1) e.2) m

/-! ### Lookups -/

theorem get?_eq_some_iff : m.get? k = some x ↔ (k,x) ∈ m.entries := by
  obtain ⟨l,sorted⟩ := m
  show (l.find? (fun e => e.1 = k)).map Prod.snd = some x ↔ (k,x) ∈ l
  induction l with
  | nil => simp
  | cons a rest ih =>
    obtain ⟨above,tail⟩ := List.pairwise_cons.mp sorted
    by_cases here : a.1 = k
    · subst here
      have absent : (a.1,x) ∉ rest := fun member => lt_irrefl _ (above (a.1,x) member)
      simp only [List.find?_cons,decide_true,Option.map_some,Option.some.injEq,List.mem_cons,absent,or_false]
      constructor
      · rintro rfl; rfl
      · intro same; rw [← same]
    · have other : (k,x) ≠ a := fun same => here (by rw [← same])
      simp only [List.find?_cons,here,decide_false,List.mem_cons,other,false_or]
      exact ih tail

theorem mem_of_get? (found : m.get? k = some x) : (k,x) ∈ m.entries :=
  get?_eq_some_iff.mp found

theorem ext_get? {n : OrdMap K V} (same : ∀ k, m.get? k = n.get? k) : m = n := by
  have antisymm : Std.Antisymm (fun a b : K × V => a.1 < b.1) := ⟨fun a b ab ba => absurd ab (lt_asymm ba)⟩
  have irrefl : Std.Irrefl (fun a b : K × V => a.1 < b.1) := ⟨fun a => lt_irrefl a.1⟩
  apply OrdMap.ext
  refine List.Pairwise.eq_of_mem_iff m.sorted n.sorted ?_
  rintro ⟨k,x⟩
  rw [← get?_eq_some_iff,← get?_eq_some_iff,same k]

theorem mem_insertEntries {e : K × V} (sorted : l.Pairwise (fun a b => a.1 < b.1)) :
    e ∈ insertEntries k x l ↔ e = (k,x) ∨ (e.1 ≠ k ∧ e ∈ l) := by
  induction l with
  | nil => simp [insertEntries]
  | cons a rest ih =>
    obtain ⟨above,tail⟩ := List.pairwise_cons.mp sorted
    have ih := ih tail
    simp only [insertEntries]
    split_ifs with less same
    · constructor
      · intro member
        rcases List.mem_cons.mp member with here | later
        · exact .inl here
        · refine .inr ⟨?_,later⟩
          rcases List.mem_cons.mp later with first | rest
          · rw [first]; exact less.ne'
          · exact (less.trans (above e rest)).ne'
      · rintro (here | ⟨_,later⟩)
        · exact List.mem_cons.mpr (.inl here)
        · exact List.mem_cons.mpr (.inr later)
    · subst same
      constructor
      · intro member
        rcases List.mem_cons.mp member with here | later
        · exact .inl here
        · exact .inr ⟨(above e later).ne',List.mem_cons.mpr (.inr later)⟩
      · rintro (here | ⟨other,later⟩)
        · exact List.mem_cons.mpr (.inl here)
        · rcases List.mem_cons.mp later with first | rest
          · exact absurd (by rw [first]) other
          · exact List.mem_cons.mpr (.inr rest)
    · rw [List.mem_cons,ih,List.mem_cons]
      constructor
      · rintro (first | here | ⟨other,rest⟩)
        · exact .inr ⟨by rw [first]; exact fun h => same h.symm,.inl first⟩
        · exact .inl here
        · exact .inr ⟨other,.inr rest⟩
      · rintro (here | ⟨other,first | rest⟩)
        · exact .inr (.inl here)
        · exact .inl first
        · exact .inr (.inr ⟨other,rest⟩)

@[simp] theorem empty_def : (∅ : OrdMap K V) = empty := rfl
@[simp] theorem get?_empty (k : K) : (empty : OrdMap K V).get? k = none := rfl

theorem get?_insert (m : OrdMap K V) (k j : K) (x : V) :
    (m.insert k x).get? j = if j = k then some x else m.get? j := by
  apply Option.ext
  intro y
  rw [get?_eq_some_iff]
  show (j,y) ∈ insertEntries k x m.entries ↔ _
  rw [mem_insertEntries m.sorted]
  by_cases same : j = k
  · simp [same,eq_comm]
  · simp [same,get?_eq_some_iff]

@[simp] theorem get?_insert_self (m : OrdMap K V) (k : K) (x : V) : (m.insert k x).get? k = some x := by
  simp [get?_insert]

theorem get?_insert_of_ne (other : j ≠ k) : (m.insert k x).get? j = m.get? j := by
  simp [get?_insert,other]

/-- What holds of a new entry and of the old ones holds of every entry after an update. -/
@[elab_as_elim]
theorem of_insert {P : K → V → Prop} (found : (m.insert k x).get? j = some y)
    (here : P k x) (before : ∀ j y, m.get? j = some y → P j y) : P j y := by
  rw [get?_insert] at found
  split_ifs at found with same
  · cases found
    exact same ▸ here
  · exact before j y found

theorem get?_erase (m : OrdMap K V) (k j : K) : (m.erase k).get? j = if j = k then none else m.get? j := by
  apply Option.ext
  intro y
  rw [get?_eq_some_iff]
  by_cases same : j = k <;> simp [erase,same,get?_eq_some_iff]

@[simp] theorem get?_erase_self (m : OrdMap K V) (k : K) : (m.erase k).get? k = none := by simp [get?_erase]

theorem of_erase (found : (m.erase k).get? j = some y) : m.get? j = some y := by
  rw [get?_erase] at found
  split_ifs at found
  exact found

section Updates
variable (m)

theorem get?_erase_of_ne (other : j ≠ k) : (m.erase k).get? j = m.get? j := by
  simp [get?_erase,other]

@[simp] theorem insert_insert (k : K) (x y : V) : (m.insert k x).insert k y = m.insert k y := by
  apply ext_get?
  intro j
  by_cases same : j = k <;> simp [get?_insert,same]

theorem insert_comm (x y : V) (other : j ≠ k) : (m.insert j x).insert k y = (m.insert k y).insert j x := by
  refine ext_get? fun i => ?_
  simp only [get?_insert]
  by_cases here : i = k
  · subst here; simp [Ne.symm other]
  · simp [here]

theorem get?_set (k j : K) (x : Option V) : (m.set k x).get? j = if j = k then x else m.get? j := by
  cases x with
  | none => exact get?_erase m k j
  | some x => exact get?_insert m k j x

@[simp] theorem get?_set_self (k : K) (x : Option V) : (m.set k x).get? k = x := by simp [get?_set]

theorem get?_set_of_ne (x : Option V) (other : j ≠ k) : (m.set k x).get? j = m.get? j := by
  simp [get?_set,other]

@[simp] theorem set_set (k : K) (x y : Option V) : (m.set k x).set k y = m.set k y := by
  apply ext_get?
  intro j
  by_cases same : j = k <;> simp [get?_set,same]

theorem set_comm (x y : Option V) (other : j ≠ k) : (m.set j x).set k y = (m.set k y).set j x := by
  refine ext_get? fun i => ?_
  simp only [get?_set]
  by_cases here : i = k
  · subst here; simp [Ne.symm other]
  · simp [here]

end Updates

theorem get?_retain_eq_some {p : K → V → Bool} :
    (m.retain p).get? k = some x ↔ m.get? k = some x ∧ p k x = true := by
  rw [get?_eq_some_iff,get?_eq_some_iff,retain,List.mem_filter]

theorem contains_iff : m.contains k = true ↔ ∃ x, m.get? k = some x := by
  simp [contains,Option.isSome_iff_exists]

theorem contains_insert :
    (m.insert k x).contains j = true ↔ m.contains j = true ∨ j = k := by
  by_cases same : j = k <;> simp [contains,get?_insert,same]

theorem contains_eq_false_iff : m.contains k = false ↔ m.get? k = none := by
  simp [contains]

theorem get?_mapValues (f : K → V → W) (m : OrdMap K V) (k : K) :
    (m.mapValues f).get? k = (m.get? k).map (f k) := by
  apply Option.ext
  intro y
  rw [get?_eq_some_iff]
  simp only [mapValues,List.mem_map,Prod.mk.injEq,Prod.exists,Option.map_eq_some_iff]
  constructor
  · rintro ⟨k',x,member,rfl,rfl⟩; exact ⟨x,get?_eq_some_iff.mpr member,rfl⟩
  · rintro ⟨x,found,rfl⟩; exact ⟨k,x,mem_of_get? found,rfl,rfl⟩

section Extend
variable {L : Type w} [LinearOrder L] {key : L → K}

omit [LinearOrder L] in
private theorem get?_foldl_of_ne {a : K} {l : List (L × V)} (other : ∀ e ∈ l, key e.1 ≠ a) (m : OrdMap K V) :
    (l.foldl (fun m e => m.insert (key e.1) e.2) m).get? a = m.get? a := by
  induction l generalizing m with
  | nil => rfl
  | cons e rest ih =>
    rw [List.foldl_cons,ih (fun x member => other x (.tail _ member)),
      get?_insert_of_ne (other e (.head _)).symm]

private theorem get?_foldl_of_mem {e : L × V} {l : List (L × V)} (injective : Function.Injective key)
    (sorted : l.Pairwise (fun a b => a.1 < b.1)) (member : e ∈ l) (m : OrdMap K V) :
    (l.foldl (fun m e => m.insert (key e.1) e.2) m).get? (key e.1) = some e.2 := by
  induction l generalizing m with
  | nil => cases member
  | cons x rest ih =>
    obtain ⟨above,ordered⟩ := List.pairwise_cons.mp sorted
    rcases List.mem_cons.mp member with rfl | later
    · rw [List.foldl_cons,get?_foldl_of_ne (fun y inside same => (above y inside).ne' (injective same)),get?_insert_self]
    · exact ih ordered later _

theorem get?_extend (injective : Function.Injective key) (m : OrdMap K V) (n : OrdMap L V) (k : L) :
    (m.extend key n).get? (key k) = (n.get? k).or (m.get? (key k)) := by
  cases found : n.get? k with
  | some x => exact get?_foldl_of_mem injective n.sorted (mem_of_get? found) m
  | none =>
    refine get?_foldl_of_ne (fun e member same => ?_) m
    have inside : n.get? e.1 = some e.2 := get?_eq_some_iff.mpr member
    rw [injective same,found] at inside
    cases inside

theorem get?_extend_of_ne {a : K} (other : ∀ k, key k ≠ a) (m : OrdMap K V) (n : OrdMap L V) :
    (m.extend key n).get? a = m.get? a := get?_foldl_of_ne (fun e _ => other e.1) m

theorem extend_insert (injective : Function.Injective key) (m : OrdMap K V) (n : OrdMap L V) (k : L) (x : V) :
    m.extend key (n.insert k x) = (m.extend key n).insert (key k) x := by
  apply ext_get?
  intro a
  by_cases image : ∃ j, key j = a
  · obtain ⟨j,rfl⟩ := image
    by_cases same : j = k
    · subst same; simp [get?_extend injective]
    · rw [get?_extend injective,get?_insert_of_ne same,get?_insert_of_ne (fun h => same (injective h)),
        get?_extend injective]
  · have other : ∀ j, key j ≠ a := fun j same => image ⟨j,same⟩
    rw [get?_extend_of_ne other,get?_insert_of_ne (other k).symm,get?_extend_of_ne other]

end Extend

theorem mem_keys : k ∈ m.keys ↔ ∃ x, m.get? k = some x := by
  simp [keys,get?_eq_some_iff]

theorem mem_values : x ∈ m.values ↔ ∃ k, m.get? k = some x := by
  simp [values,get?_eq_some_iff]

theorem mem_keys_ofList : k ∈ (ofList l).keys ↔ k ∈ l.map Prod.fst := by
  have from_map (m : OrdMap K V) : k ∈ (l.foldl (fun m e => m.insert e.1 e.2) m).keys ↔
      k ∈ m.keys ∨ k ∈ l.map Prod.fst := by
    induction l generalizing m with
    | nil => simp
    | cons e rest ih =>
      rw [List.foldl_cons,ih,List.map_cons,List.mem_cons,mem_keys,mem_keys,get?_insert]
      by_cases here : k = e.1
      · simp [here]
      · simp [here]
  rw [ofList,from_map]
  simp [empty,keys]

theorem keys_sorted (m : OrdMap K V) : m.keys.Pairwise (· < ·) := by
  simpa [keys,List.pairwise_map] using m.sorted

theorem keys_nodup (m : OrdMap K V) : m.keys.Nodup := m.keys_sorted.imp ne_of_lt

theorem keys_length (m : OrdMap K V) : m.keys.length = m.entries.length := List.length_map _

theorem size_mapValues (f : K → V → W) (m : OrdMap K V) : (m.mapValues f).size = m.size :=
  List.length_map _

theorem isEmpty_iff : m.isEmpty = true ↔ ∀ k, m.get? k = none := by
  rw [isEmpty,List.isEmpty_iff]
  constructor
  · intro none k; simp [get?,none]
  · intro none
    apply List.eq_nil_iff_forall_not_mem.mpr
    rintro ⟨k,x⟩ member
    have found := get?_eq_some_iff.mpr member
    rw [none k] at found
    cases found

/-! ### The least and the greatest key -/

theorem first?_eq_none_iff : m.first? = none ↔ ∀ k, m.get? k = none := by
  rw [← isEmpty_iff,isEmpty,first?,List.head?_eq_none_iff,List.isEmpty_iff]

theorem last?_eq_none_iff : m.last? = none ↔ ∀ k, m.get? k = none := by
  rw [← isEmpty_iff,isEmpty,last?,List.getLast?_eq_none_iff,List.isEmpty_iff]

theorem get?_of_first? (first : m.first? = some (k,x)) : m.get? k = some x :=
  get?_eq_some_iff.mpr (List.mem_of_mem_head? first)

theorem get?_of_last? (last : m.last? = some (k,x)) : m.get? k = some x :=
  get?_eq_some_iff.mpr (List.mem_of_getLast? last)

theorem entries_of_first? (first : m.first? = some (k,x)) :
    m.entries = (k,x) :: (m.erase k).entries := by
  obtain ⟨rest,shape⟩ := List.head?_eq_some_iff.mp first
  have sorted := m.sorted
  rw [shape] at sorted
  have kept : rest.filter (fun e => e.1 ≠ k) = rest := by
    refine List.filter_eq_self.mpr fun e member => ?_
    simpa using (List.rel_of_pairwise_cons sorted member).ne'
  change m.entries = (k,x) :: m.entries.filter (fun e => e.1 ≠ k)
  rw [shape,List.filter_cons_of_neg (by simp),kept]

/-- Of the entries that pass a test, one put in at a new key behind them comes last. -/
theorem filter_insert_of_lt {p : V → Bool} (absent : ∀ e ∈ m.entries, e.1 ≠ k)
    (last : p x = true → ∀ e ∈ m.entries, p e.2 = true → e.1 < k) :
    (m.insert k x).values.filter p = m.values.filter p ++ [x].filter p := by
  have general (l : List (K × V)) (sorted : l.Pairwise (fun a b => a.1 < b.1)) (absent : ∀ e ∈ l, e.1 ≠ k)
      (last : p x = true → ∀ e ∈ l, p e.2 = true → e.1 < k) :
      ((insertEntries k x l).map Prod.snd).filter p = (l.map Prod.snd).filter p ++ [x].filter p := by
    induction l with
    | nil => rfl
    | cons a rest ih =>
      obtain ⟨above,tail⟩ := List.pairwise_cons.mp sorted
      simp only [insertEntries]
      split_ifs with less same
      · -- Every entry is behind the new one, so none of them passes if it does.
        cases passes : p x with
        | false => simp [passes]
        | true =>
          have none : ((a :: rest).map Prod.snd).filter p = [] := by
            refine List.filter_eq_nil_iff.mpr fun y member => ?_
            obtain ⟨e,inside,rfl⟩ := List.mem_map.mp member
            intro holds
            have after : k < e.1 := by
              rcases List.mem_cons.mp inside with rfl | later
              · exact less
              · exact less.trans (above e later)
            exact lt_asymm after (last passes e inside holds)
          rw [List.map_cons,List.filter_cons_of_pos passes,none]
          simp [passes]
      · exact absurd same.symm (absent a List.mem_cons_self)
      · have later := ih tail (fun e member => absent e (List.mem_cons_of_mem _ member))
          (fun passes e member => last passes e (List.mem_cons_of_mem _ member))
        rw [List.map_cons,List.map_cons,List.filter_cons,List.filter_cons,later]
        split_ifs <;> rfl
  exact general m.entries m.sorted absent last

theorem first?_le (first : m.first? = some (k,x)) (found : m.get? j = some y) :
    k ≤ j := by
  obtain ⟨rest,shape⟩ := List.head?_eq_some_iff.mp first
  have member := mem_of_get? found
  have sorted := m.sorted
  rw [shape] at member sorted
  rcases List.mem_cons.mp member with here | later
  · exact le_of_eq (congrArg Prod.fst here).symm
  · exact ((List.pairwise_cons.mp sorted).1 _ later).le

theorem le_last? (last : m.last? = some (k,x)) (found : m.get? j = some y) :
    j ≤ k := by
  obtain ⟨start,shape⟩ := List.getLast?_eq_some_iff.mp last
  have member := mem_of_get? found
  have sorted := m.sorted
  rw [shape] at member sorted
  rcases List.mem_append.mp member with earlier | here
  · exact ((List.pairwise_append.mp sorted).2.2 _ earlier _ (List.mem_singleton_self (k,x))).le
  · exact le_of_eq (congrArg Prod.fst (List.mem_singleton.mp here))

section Totals
variable {A : Type w} [AddCommMonoid A] {m : OrdMap K V} {f : K → V → A}

/-- The total of a quantity over the entries. -/
def sum (m : OrdMap K V) (f : K → V → A) : A := (m.entries.map (fun e => f e.1 e.2)).sum

@[simp] theorem sum_empty (f : K → V → A) : (empty : OrdMap K V).sum f = 0 := rfl

theorem sum_congr {g : K → V → A} (same : ∀ k x, m.get? k = some x → f k x = g k x) :
    m.sum f = m.sum g := by
  simp only [sum]
  congr 1
  apply List.map_congr_left
  rintro ⟨k,x⟩ member
  exact same k x (get?_eq_some_iff.mpr member)

theorem sum_eq_zero (zero : ∀ k x, m.get? k = some x → f k x = 0) : m.sum f = 0 := by
  rw [sum_congr zero]
  simp [sum]

theorem sum_add (m : OrdMap K V) (f g : K → V → A) : m.sum (fun k x => f k x + g k x) = m.sum f + m.sum g := by
  simp only [sum]
  exact List.sum_map_add

theorem sum_insertEntries (f : K → V → A) (k : K) (x : V) {l : List (K × V)}
    (sorted : l.Pairwise (fun a b => a.1 < b.1)) :
    ((insertEntries k x l).map (fun e => f e.1 e.2)).sum +
        ((l.find? (fun e => e.1 = k)).map Prod.snd).elim 0 (f k) =
      (l.map (fun e => f e.1 e.2)).sum + f k x := by
  induction l with
  | nil => simp [insertEntries]
  | cons a rest ih =>
    obtain ⟨above,tail⟩ := List.pairwise_cons.mp sorted
    simp only [insertEntries]
    split_ifs with less same
    · have absent : rest.find? (fun e => e.1 = k) = none := by
        simp only [List.find?_eq_none,decide_eq_true_eq]
        exact fun e member => (less.trans (above e member)).ne'
      have other : ¬ a.1 = k := less.ne'
      simp only [List.find?_cons,other,decide_false,absent,Option.map_none,Option.elim_none,add_zero,List.map_cons,
        List.sum_cons]
      abel
    · subst same
      simp only [List.find?_cons,decide_true,Option.map_some,Option.elim_some,List.map_cons,List.sum_cons]
      abel
    · have other : ¬ a.1 = k := fun h => same h.symm
      simp only [List.find?_cons,other,decide_false,List.map_cons,List.sum_cons]
      rw [add_assoc,ih tail,add_assoc]

/-- Setting a value replaces what the old value contributed. -/
theorem sum_insert (m : OrdMap K V) (f : K → V → A) (k : K) (x : V) :
    (m.insert k x).sum f + (m.get? k).elim 0 (f k) = m.sum f + f k x :=
  sum_insertEntries f k x m.sorted

theorem sum_insert_new (f : K → V → A) {k : K} (x : V) (absent : m.get? k = none) :
    (m.insert k x).sum f = m.sum f + f k x := by
  have total := sum_insert m f k x
  rwa [absent,Option.elim_none,add_zero] at total

theorem sum_erase (m : OrdMap K V) (f : K → V → A) (k : K) :
    (m.erase k).sum f + (m.get? k).elim 0 (f k) = m.sum f := by
  cases found : m.get? k with
  | none =>
    have same : m.erase k = m := by
      apply ext_get?
      intro j
      by_cases here : j = k
      · subst here; simp [found]
      · simp [get?_erase,here]
    simp [same]
  | some x =>
    have back : (m.erase k).insert k x = m := by
      apply ext_get?
      intro j
      by_cases here : j = k
      · subst here; simp [found]
      · simp [get?_insert,get?_erase,here]
    have total := sum_insert_new f x (get?_erase_self m k)
    rw [back] at total
    exact total.symm

theorem sum_set (m : OrdMap K V) (f : K → V → A) (k : K) (x : Option V) :
    (m.set k x).sum f + (m.get? k).elim 0 (f k) = m.sum f + x.elim 0 (f k) := by
  cases x with
  | none => rw [Option.elim_none,add_zero]; exact sum_erase m f k
  | some x => exact sum_insert m f k x

theorem sum_single (m : OrdMap K V) (f : K → V → A) (k : K) :
    m.sum (fun j x => if j = k then f j x else 0) = (m.get? k).elim 0 (f k) := by
  have total := sum_erase m (fun j x => if j = k then f j x else 0) k
  have rest : (m.erase k).sum (fun j x => if j = k then f j x else 0) = 0 := by
    refine sum_eq_zero fun j x found => if_neg fun same => ?_
    subst same
    simp at found
  rw [rest,zero_add] at total
  rw [← total]
  cases m.get? k <;> simp

/-- Dropping entries that add nothing keeps the total. -/
theorem sum_foldl_erase {dropped : List K}
    (zero : ∀ k ∈ dropped, ∀ x, m.get? k = some x → f k x = 0) : (dropped.foldl erase m).sum f = m.sum f := by
  induction dropped generalizing m with
  | nil => rfl
  | cons k rest ih =>
    rw [List.foldl_cons,ih]
    · have total := sum_erase m f k
      cases found : m.get? k with
      | none => rwa [found,Option.elim_none,add_zero] at total
      | some x => rwa [found,Option.elim_some,zero k (.head _) x found,add_zero] at total
    · intro j member x found
      exact zero j (.tail _ member) x (of_erase found)

end Totals

theorem get?_foldl_erase (m : OrdMap K V) (dropped : List K) (k : K) :
    (dropped.foldl erase m).get? k = if k ∈ dropped then none else m.get? k := by
  induction dropped generalizing m with
  | nil => simp
  | cons j rest ih =>
    rw [List.foldl_cons,ih,get?_erase]
    by_cases here : k = j <;> by_cases later : k ∈ rest <;> simp [here,later]

section Ordered
variable {A : Type w} [AddCommMonoid A] [PartialOrder A] [IsOrderedAddMonoid A] {m : OrdMap K V} {f : K → V → A}

theorem sum_nonneg (nonneg : ∀ k x, m.get? k = some x → 0 ≤ f k x) : 0 ≤ m.sum f := by
  apply List.sum_nonneg
  intro a member
  obtain ⟨⟨k,x⟩,inside,rfl⟩ := List.mem_map.mp member
  exact nonneg k x (get?_eq_some_iff.mpr inside)

theorem le_sum (nonneg : ∀ k x, m.get? k = some x → 0 ≤ f k x) {k : K} {x : V}
    (found : m.get? k = some x) : f k x ≤ m.sum f := by
  have total := sum_erase m f k
  rw [found,Option.elim_some] at total
  rw [← total]
  refine le_add_of_nonneg_left (sum_nonneg ?_)
  intro j y inside
  by_cases here : j = k
  · subst here; simp at inside
  · exact nonneg j y (by rwa [get?_erase_of_ne m here] at inside)

theorem sum_le_sum {g : K → V → A} (le : ∀ k x, m.get? k = some x → f k x ≤ g k x) :
    m.sum f ≤ m.sum g :=
  List.sum_le_sum fun e member => le e.1 e.2 (get?_eq_some_iff.mpr member)

end Ordered

theorem sum_mapValues {A : Type x} [AddCommMonoid A] (m : OrdMap K V) (f : K → V → W) (g : K → W → A) :
    (m.mapValues f).sum g = m.sum (fun k v => g k (f k v)) := by
  simp [sum,mapValues,Function.comp_def]

theorem size_eq_sum (m : OrdMap K V) : m.size = m.sum (fun _ _ => 1) := by
  simp [size,sum]

theorem size_insert_new (absent : m.get? k = none) (x : V) : (m.insert k x).size = m.size + 1 := by
  rw [size_eq_sum,size_eq_sum]
  exact sum_insert_new _ x absent

theorem size_erase (there : m.contains k = true) : (m.erase k).size + 1 = m.size := by
  obtain ⟨x,found⟩ := contains_iff.mp there
  have total := m.sum_erase (fun _ _ => (1 : Nat)) k
  rw [found] at total
  rw [size_eq_sum,size_eq_sum]
  exact total

theorem sum_comm {L : Type x} {W : Type y} {A : Type z} [LinearOrder L] [AddCommMonoid A] (m : OrdMap K V)
    (n : OrdMap L W) (f : K → V → L → W → A) :
    m.sum (fun k x => n.sum (f k x)) = n.sum (fun l y => m.sum (fun k x => f k x l y)) := by
  have lists (entries : List (K × V)) : (entries.map (fun e => n.sum (f e.1 e.2))).sum =
      n.sum (fun l y => (entries.map (fun e => f e.1 e.2 l y)).sum) := by
    induction entries with
    | nil => exact (sum_eq_zero fun _ _ _ => rfl).symm
    | cons e rest ih =>
      simp only [List.map_cons,List.sum_cons]
      rw [ih,← sum_add]
  exact lists m.entries

/-- A map whose keys are those of another that meet a condition. -/
theorem size_of_picks {m : OrdMap K W} {n : OrdMap K V} {p : K → V → Prop} [∀ k x, Decidable (p k x)]
    (same : ∀ k, (∃ y, m.get? k = some y) ↔ ∃ x, n.get? k = some x ∧ p k x) :
    m.size = n.sum (fun k x => if p k x then 1 else 0) := by
  have keys : m.keys.Perm ((n.entries.filter (fun e => p e.1 e.2)).map Prod.fst) := by
    refine (List.perm_ext_iff_of_nodup m.keys_nodup (n.keys_nodup.sublist (List.filter_sublist.map Prod.fst))).mpr fun k => ?_
    rw [mem_keys,same,List.mem_map]
    constructor
    · rintro ⟨x,found,holds⟩
      exact ⟨(k,x),List.mem_filter.mpr ⟨get?_eq_some_iff.mp found,by simpa using holds⟩,rfl⟩
    · rintro ⟨⟨j,x⟩,picked,rfl⟩
      obtain ⟨there,holds⟩ := List.mem_filter.mp picked
      exact ⟨x,get?_eq_some_iff.mpr there,by simpa using holds⟩
  have counted (entries : List (K × V)) :
      (entries.filter (fun e => p e.1 e.2)).length = (entries.map (fun e => if p e.1 e.2 then 1 else 0)).sum := by
    induction entries with
    | nil => rfl
    | cons e rest ih =>
      rw [List.filter_cons,List.map_cons,List.sum_cons,← ih]
      by_cases holds : p e.1 e.2 <;> simp [holds,Nat.add_comm]
  have length := keys.length_eq
  rw [List.length_map,counted] at length
  rw [sum,← length,size,keys_length]

/-- Distinct keys of a map, counted over its entries. -/
theorem sum_mem {keys : List K} (distinct : keys.Nodup)
    (inside : ∀ k ∈ keys, ∃ x, m.get? k = some x) : m.sum (fun k _ => if k ∈ keys then 1 else 0) = keys.length := by
  induction keys with
  | nil => exact sum_eq_zero fun _ _ _ => if_neg (by simp)
  | cons k rest ih =>
    obtain ⟨new,distinct⟩ := List.nodup_cons.mp distinct
    obtain ⟨x,found⟩ := inside k (.head _)
    have split : m.sum (fun j _ => if j ∈ k :: rest then 1 else 0) =
        m.sum (fun j _ => if j = k then 1 else 0) + m.sum (fun j _ => if j ∈ rest then 1 else 0) := by
      rw [← sum_add]
      refine sum_congr fun j y _ => ?_
      by_cases here : j = k
      · subst here; simp [new]
      · simp [here]
    rw [split,ih distinct fun j member => inside j (.tail _ member),sum_single m (fun _ _ => 1) k,found]
    simp [add_comm]

end OrdMap
