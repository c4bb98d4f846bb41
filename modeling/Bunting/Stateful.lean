import Mathlib.Tactic

/-!
Programs that change a state and can fail, with the state they leave behind in
both cases. `Meets` is the contract of such a program: from every state of its
precondition it returns in its postcondition or fails in a way it names. The
rules compose contracts along `>>=`, over a part of the state (`zoom`) and along
a loop (`forM_meets`).
-/

namespace Stateful

variable {ε δ σ τ α β : Type}

/-- A computation without state, run where there is one. -/
instance lift_except : MonadLift (Except ε) (EStateM ε σ) where
  monadLift x := fun s =>
    match x with
    | .ok a => .ok a s
    | .error e => .error e s

/-- Runs a program on a part of the state. A failure keeps what it did to the part. -/
def zoom (view : σ → τ) (put : τ → σ → σ) (fault : δ → ε) (m : EStateM δ τ α) : EStateM ε σ α := fun s =>
  match m.run (view s) with
  | .ok a t => .ok a (put t s)
  | .error e t => .error (fault e) (put t s)

/-- Fails with `e` where the condition holds. -/
def refuse {m : Type → Type} [Monad m] [MonadExceptOf ε m] (c : Prop) [Decidable c] (e : ε) : m PUnit :=
  if c then throw e else pure ⟨⟩

/-- The value, or a failure where there is none. -/
def orElse {m : Type → Type} [Monad m] [MonadExceptOf ε m] (x : Option α) (e : ε) : m α :=
  match x with
  | some a => pure a
  | none => throw e

instance eq_result [DecidableEq ε] [DecidableEq σ] [DecidableEq α] : DecidableEq (EStateM.Result ε σ α)
  | .ok a s,.ok b t | .error a s,.error b t => decidable_of_iff (a = b ∧ s = t) (by simp)
  | .ok _ _,.error _ _ | .error _ _,.ok _ _ => isFalse nofun

instance eq_except [DecidableEq ε] [DecidableEq α] : DecidableEq (Except ε α)
  | .ok a,.ok b | .error a,.error b => decidable_of_iff (a = b) (by simp)
  | .ok _,.error _ | .error _,.ok _ => isFalse nofun

/-! A statement about an outcome is decided by computing it. -/

instance found_decidable {x : Option α} {p : α → Prop} [∀ a, Decidable (p a)] : Decidable (∃ a, x = some a ∧ p a) :=
  match x with
  | some a => decidable_of_iff (p a) (by simp)
  | none => isFalse (by simp)

instance accepted_decidable {x : Except ε α} {p : α → Prop} [∀ a, Decidable (p a)] : Decidable (∃ a, x = .ok a ∧ p a) :=
  match x with
  | .ok a => decidable_of_iff (p a) (by simp)
  | .error _ => isFalse (by simp)

instance returned_decidable {r : EStateM.Result ε σ α} {p : α → σ → Prop} [∀ a s, Decidable (p a s)] :
    Decidable (∃ a s, r = .ok a s ∧ p a s) :=
  match r with
  | .ok a s => decidable_of_iff (p a s) (by simp)
  | .error _ _ => isFalse (by simp)

/-! ### What each construct does at a state -/

section Outcomes
variable {x : Except ε α} {f : α → Except ε β} {b : β} {e : ε} {a : α} {c : Prop} {xs : List α}
  {s t : σ} {m : EStateM ε σ α} {view : σ → τ} {put : τ → σ → σ} {fault : δ → ε}

@[simp] theorem run_throw (e : ε) (s : σ) : (throw e : EStateM ε σ α).run s = .error e s := rfl
@[simp] theorem run_map (m : EStateM ε σ α) (f : α → β) (s : σ) :
    (f <$> m).run s =
      match m.run s with
      | .ok a t => .ok (f a) t
      | .error e t => .error e t := rfl
@[simp] theorem run_lift_ok (a : α) (s : σ) : (liftM (.ok a : Except ε α) : EStateM ε σ α).run s = .ok a s := rfl
@[simp] theorem run_lift_error (e : ε) (s : σ) :
    (liftM (.error e : Except ε α) : EStateM ε σ α).run s = .error e s := rfl
theorem run_zoom (view : σ → τ) (put : τ → σ → σ) (fault : δ → ε) (m : EStateM δ τ α) (s : σ) :
    (zoom view put fault m).run s =
      match m.run (view s) with
      | .ok a t => .ok a (put t s)
      | .error e t => .error (fault e) (put t s) := rfl

theorem run_refuse (c : Prop) [Decidable c] (e : ε) (s : σ) :
    (refuse c e : EStateM ε σ PUnit).run s = if c then .error e s else .ok ⟨⟩ s := by
  by_cases h : c <;> simp [refuse,h]
@[simp] theorem run_orElse_some (a : α) (e : ε) (s : σ) :
    (orElse (some a) e : EStateM ε σ α).run s = .ok a s := rfl
@[simp] theorem run_orElse_none (e : ε) (s : σ) : (orElse none e : EStateM ε σ α).run s = .error e s := rfl
theorem except_refuse (c : Prop) [Decidable c] (e : ε) :
    (refuse c e : Except ε PUnit) = if c then .error e else .ok ⟨⟩ := rfl
@[simp] theorem except_orElse_some (a : α) (e : ε) : (orElse (some a) e : Except ε α) = .ok a := rfl
@[simp] theorem except_orElse_none (e : ε) : (orElse none e : Except ε α) = .error e := rfl

/-! ### A run that returned, taken apart -/

theorem except_bind_eq_ok :
    (x >>= f) = .ok b ↔ ∃ a, x = .ok a ∧ f a = .ok b := by
  cases x <;> simp [bind,Except.bind]
theorem except_bind_eq_error :
    (x >>= f) = .error e ↔ x = .error e ∨ ∃ a, x = .ok a ∧ f a = .error e := by
  cases x <;> simp [bind,Except.bind]
theorem except_map_eq_ok {f : α → β} : f <$> x = .ok b ↔ ∃ a, x = .ok a ∧ f a = b := by
  cases x <;> simp [Functor.map,Except.map]
theorem except_pure_eq_ok {b : α} : (pure a : Except ε α) = .ok b ↔ a = b := by
  simp [pure,Except.pure]
theorem except_refuse_eq_ok [Decidable c] {x : PUnit} :
    (refuse c e : Except ε PUnit) = .ok x ↔ ¬ c := by
  by_cases h : c <;> simp [except_refuse,h]
theorem except_refuse_eq_error [Decidable c] {f : ε} :
    (refuse c e : Except ε PUnit) = .error f ↔ c ∧ e = f := by
  by_cases h : c <;> simp [except_refuse,h]
theorem except_orElse_eq_ok {x : Option α} : (orElse x e : Except ε α) = .ok a ↔ x = some a := by
  cases x <;> simp
theorem except_orElse_eq_error {x : Option α} {f : ε} :
    (orElse x e : Except ε α) = .error f ↔ x = none ∧ e = f := by
  cases x <;> simp

theorem except_foldlM_concat_eq_ok {f : β → α → Except ε β} {x : α} {c : β} :
    (xs ++ [x]).foldlM f b = .ok c ↔ ∃ d, xs.foldlM f b = .ok d ∧ f d x = .ok c := by
  rw [List.foldlM_append,except_bind_eq_ok]
  refine exists_congr fun d => and_congr_right fun _ => ?_
  rw [List.foldlM_cons,except_bind_eq_ok]
  exact ⟨fun ⟨_,first,same⟩ => same ▸ first,fun ran => ⟨c,ran,rfl⟩⟩

/-- What a map over a list returned, element by element. -/
theorem except_mapM_mem {ys : List β} (ran : xs.mapM f = .ok ys) {y : β} (member : y ∈ ys) : ∃ x ∈ xs, f x = .ok y := by
  induction xs generalizing ys with
  | nil =>
    cases except_pure_eq_ok.mp ran
    cases member
  | cons x rest ih =>
    simp only [List.mapM_cons,except_bind_eq_ok,except_pure_eq_ok] at ran
    obtain ⟨first,here,others,later,rfl⟩ := ran
    rcases List.mem_cons.mp member with rfl | member
    · exact ⟨x,List.mem_cons_self,here⟩
    · obtain ⟨z,inside,made⟩ := ih later member
      exact ⟨z,List.mem_cons_of_mem _ inside,made⟩

theorem pure_eq_ok {b : α} : (pure a : EStateM ε σ α).run s = .ok b t ↔ a = b ∧ s = t := by simp
theorem bind_eq_ok {f : α → EStateM ε σ β} :
    (m >>= f).run s = .ok b t ↔ ∃ a u, m.run s = .ok a u ∧ (f a).run u = .ok b t := by
  rw [EStateM.run_bind]
  cases m.run s <;> simp
theorem get_eq_ok {u : σ} : (get : EStateM ε σ σ).run s = .ok u t ↔ s = u ∧ s = t := by
  simp
theorem set_eq_ok {u : σ} {x : PUnit} : (set u : EStateM ε σ PUnit).run s = .ok x t ↔ u = t := by
  simp
theorem modify_eq_ok {f : σ → σ} {x : PUnit} :
    (modify f : EStateM ε σ PUnit).run s = .ok x t ↔ f s = t := by
  simp
theorem throw_eq_ok : (throw e : EStateM ε σ α).run s = .ok a t ↔ False := by simp
theorem lift_eq_ok :
    (liftM x : EStateM ε σ α).run s = .ok a t ↔ x = .ok a ∧ s = t := by
  cases x <;> simp
theorem refuse_eq_ok [Decidable c] {x : PUnit} :
    (refuse c e : EStateM ε σ PUnit).run s = .ok x t ↔ ¬ c ∧ s = t := by
  by_cases h : c <;> simp [run_refuse,h]
theorem orElse_eq_ok {x : Option α} :
    (orElse x e : EStateM ε σ α).run s = .ok a t ↔ x = some a ∧ s = t := by
  cases x <;> simp
theorem zoom_eq_ok {m : EStateM δ τ α} {s' : σ} :
    (zoom view put fault m).run s = .ok a s' ↔ ∃ t, m.run (view s) = .ok a t ∧ put t s = s' := by
  rw [run_zoom]
  cases m.run (view s) <;> simp

/-- When each construct returns, and what is left of the state it passes on: the rules that take a run apart. -/
theorem returned :
    (∀ {ε σ α : Type} {a b : α} {s t : σ}, (pure a : EStateM ε σ α).run s = .ok b t ↔ a = b ∧ s = t) ∧
    (∀ {ε σ α β : Type} {m : EStateM ε σ α} {f : α → EStateM ε σ β} {s t : σ} {b : β},
      (m >>= f).run s = .ok b t ↔ ∃ a u, m.run s = .ok a u ∧ (f a).run u = .ok b t) ∧
    (∀ {ε σ : Type} {s t u : σ}, (get : EStateM ε σ σ).run s = .ok u t ↔ s = u ∧ s = t) ∧
    (∀ {ε σ : Type} {s t u : σ} {x : PUnit}, (set u : EStateM ε σ PUnit).run s = .ok x t ↔ u = t) ∧
    (∀ {ε σ : Type} {f : σ → σ} {s t : σ} {x : PUnit}, (modify f : EStateM ε σ PUnit).run s = .ok x t ↔ f s = t) ∧
    (∀ {ε σ α : Type} {e : ε} {s t : σ} {a : α}, (throw e : EStateM ε σ α).run s = .ok a t ↔ False) ∧
    (∀ {ε σ α : Type} {x : Except ε α} {s t : σ} {a : α},
      (liftM x : EStateM ε σ α).run s = .ok a t ↔ x = .ok a ∧ s = t) ∧
    (∀ {ε σ : Type} {c : Prop} [Decidable c] {e : ε} {s t : σ} {x : PUnit},
      (refuse c e : EStateM ε σ PUnit).run s = .ok x t ↔ ¬ c ∧ s = t) ∧
    (∀ {ε σ α : Type} {x : Option α} {e : ε} {s t : σ} {a : α},
      (orElse x e : EStateM ε σ α).run s = .ok a t ↔ x = some a ∧ s = t) ∧
    (∀ {ε δ σ τ α : Type} {view : σ → τ} {put : τ → σ → σ} {fault : δ → ε} {m : EStateM δ τ α} {s s' : σ} {a : α},
      (zoom view put fault m).run s = .ok a s' ↔ ∃ t, m.run (view s) = .ok a t ∧ put t s = s') ∧
    (∀ {ε α : Type} {a b : α}, (pure a : Except ε α) = .ok b ↔ a = b) ∧
    (∀ {ε α β : Type} {x : Except ε α} {f : α → Except ε β} {b : β},
      (x >>= f) = .ok b ↔ ∃ a, x = .ok a ∧ f a = .ok b) ∧
    (∀ {ε α β : Type} {x : Except ε α} {f : α → β} {b : β}, f <$> x = .ok b ↔ ∃ a, x = .ok a ∧ f a = b) ∧
    (∀ {ε : Type} {c : Prop} [Decidable c] {e : ε} {x : PUnit}, (refuse c e : Except ε PUnit) = .ok x ↔ ¬ c) ∧
    (∀ {ε α : Type} {x : Option α} {e : ε} {a : α}, (orElse x e : Except ε α) = .ok a ↔ x = some a) ∧
    (∀ {σ : Type} {s : σ} {c : Prop} {P : σ → Prop}, (∃ u, (c ∧ s = u) ∧ P u) ↔ c ∧ P s) ∧
    (∀ {σ : Type} {s : σ} {P : σ → Prop}, (∃ u, s = u ∧ P u) ↔ P s) ∧
    ∀ {P : Unit → Prop}, (∃ x, P x) ↔ P () := by
  refine ⟨pure_eq_ok,bind_eq_ok,get_eq_ok,set_eq_ok,modify_eq_ok,throw_eq_ok,lift_eq_ok,refuse_eq_ok,orElse_eq_ok,zoom_eq_ok,
    except_pure_eq_ok,except_bind_eq_ok,except_map_eq_ok,except_refuse_eq_ok,except_orElse_eq_ok,?_,exists_eq_left',?_⟩
  · intros
    simp only [and_assoc,exists_and_left,exists_eq_left']
  · exact ⟨fun ⟨_,holds⟩ => holds,fun holds => ⟨_,holds⟩⟩

/-! ### A run that failed, taken apart -/

theorem bind_eq_error {f : α → EStateM ε σ β} :
    (m >>= f).run s = .error e t ↔
      m.run s = .error e t ∨ ∃ a u, m.run s = .ok a u ∧ (f a).run u = .error e t := by
  rw [EStateM.run_bind]
  cases m.run s <;> simp
theorem throw_eq_error {d : ε} :
    (throw d : EStateM ε σ α).run s = .error e t ↔ d = e ∧ s = t := by simp
theorem lift_eq_error :
    (liftM x : EStateM ε σ α).run s = .error e t ↔ x = .error e ∧ s = t := by
  cases x <;> simp
theorem refuse_eq_error [Decidable c] {d : ε} :
    (refuse c d : EStateM ε σ PUnit).run s = .error e t ↔ c ∧ d = e ∧ s = t := by
  by_cases h : c <;> simp [run_refuse,h]
theorem zoom_eq_error {m : EStateM δ τ α} {s' : σ} :
    (zoom view put fault m).run s = .error e s' ↔
      ∃ d t, m.run (view s) = .error d t ∧ fault d = e ∧ put t s = s' := by
  rw [run_zoom]
  cases m.run (view s) <;> simp

/-- When each construct fails: with `returned`, the rules that take a failed run apart. -/
theorem raised :
    (∀ {ε σ α : Type} {a : α} {e : ε} {s t : σ}, (pure a : EStateM ε σ α).run s = .error e t ↔ False) ∧
    (∀ {ε σ α β : Type} {m : EStateM ε σ α} {f : α → EStateM ε σ β} {s t : σ} {e : ε}, (m >>= f).run s = .error e t ↔
      m.run s = .error e t ∨ ∃ a u, m.run s = .ok a u ∧ (f a).run u = .error e t) ∧
    (∀ {ε σ : Type} {e : ε} {s t : σ}, (get : EStateM ε σ σ).run s = .error e t ↔ False) ∧
    (∀ {ε σ : Type} {e : ε} {s t u : σ}, (set u : EStateM ε σ PUnit).run s = .error e t ↔ False) ∧
    (∀ {ε σ : Type} {f : σ → σ} {e : ε} {s t : σ}, (modify f : EStateM ε σ PUnit).run s = .error e t ↔ False) ∧
    (∀ {ε σ α : Type} {x : Except ε α} {e : ε} {s t : σ},
      (liftM x : EStateM ε σ α).run s = .error e t ↔ x = .error e ∧ s = t) ∧
    (∀ {ε σ : Type} {c : Prop} [Decidable c] {d e : ε} {s t : σ},
      (refuse c d : EStateM ε σ PUnit).run s = .error e t ↔ c ∧ d = e ∧ s = t) ∧
    (∀ {ε σ α : Type} {x : Option α} {d e : ε} {s t : σ},
      (orElse x d : EStateM ε σ α).run s = .error e t ↔ x = none ∧ d = e ∧ s = t) ∧
    (∀ {ε δ σ τ α : Type} {view : σ → τ} {put : τ → σ → σ} {fault : δ → ε} {m : EStateM δ τ α} {s s' : σ} {e : ε},
      (zoom view put fault m).run s = .error e s' ↔ ∃ d t, m.run (view s) = .error d t ∧ fault d = e ∧ put t s = s') ∧
    (∀ {P : Prop}, False ∨ P ↔ P) ∧ (∀ {P : Prop}, P ∨ False ↔ P) ∧ (∀ {P : Prop}, P ∧ False ↔ False) ∧
    ∀ {α : Type}, (∃ _ : α, False) ↔ False := by
  refine ⟨?_,bind_eq_error,?_,?_,?_,lift_eq_error,refuse_eq_error,fun {_ _ _} x => ?value,zoom_eq_error,?_,?_,?_,?_⟩
  case value => cases x <;> simp
  all_goals simp

end Outcomes

/-! ### Failures of a computation without state -/

/-- Every failure of the computation is one of `F`. -/
def FailsOnly (F : ε → Prop) (x : Except ε α) : Prop := ∀ e, x = .error e → F e

section Failures
variable {F : ε → Prop} {x : Except ε α} {f : α → Except ε β} {xs : List α}

theorem FailsOnly.pure (a : α) : FailsOnly F (pure a : Except ε α) := fun _ failed => by cases failed

theorem FailsOnly.bind (first : FailsOnly F x) (next : ∀ a, x = .ok a → FailsOnly F (f a)) : FailsOnly F (x >>= f) := by
  intro e failed
  rcases except_bind_eq_error.mp failed with early | ⟨a,ran,late⟩
  · exact first e early
  · exact next a ran e late

theorem FailsOnly.map (f : α → β) (only : FailsOnly F x) : FailsOnly F (f <$> x) := by
  intro e failed
  cases x with
  | error d => cases failed; exact only _ rfl
  | ok a => cases failed

theorem FailsOnly.refuse {c : Prop} [Decidable c] {e : ε} (accepted : ¬ c) :
    FailsOnly F (refuse c e : Except ε PUnit) := fun _ failed => absurd (except_refuse_eq_error.mp failed).1 accepted

theorem FailsOnly.orElse {x : Option α} {e : ε} (member : F e) : FailsOnly F (orElse x e : Except ε α) :=
  fun _ failed => (except_orElse_eq_error.mp failed).2 ▸ member

theorem FailsOnly.ite {c : Prop} [Decidable c] {y : Except ε α} (yes : c → FailsOnly F x) (no : ¬ c → FailsOnly F y) :
    FailsOnly F (if c then x else y) := by
  split_ifs with h
  · exact yes h
  · exact no h

theorem FailsOnly.foldlM {f : β → α → Except ε β} (step : ∀ x ∈ xs, ∀ b, FailsOnly F (f b x)) (b : β) :
    FailsOnly F (xs.foldlM f b) := by
  induction xs generalizing b with
  | nil => exact .pure b
  | cons x rest ih =>
    rw [List.foldlM_cons]
    exact .bind (step x List.mem_cons_self b) fun c _ => ih (fun y member => step y (List.mem_cons_of_mem _ member)) c

theorem FailsOnly.mapM (step : ∀ x ∈ xs, FailsOnly F (f x)) :
    FailsOnly F (xs.mapM f) := by
  induction xs with
  | nil => exact .pure []
  | cons x rest ih =>
    rw [List.mapM_cons]
    exact .bind (step x List.mem_cons_self) fun _ _ =>
      .bind (ih fun y member => step y (List.mem_cons_of_mem _ member)) fun _ _ => .pure _

end Failures

/-! ### What a program leaves alone -/

/-- Where the program succeeds it leaves a part of the state as it was, and every failure is one of `F`. -/
def Steady (part : σ → τ) (F : ε → Prop) (m : EStateM ε σ α) : Prop :=
  ∀ s,
    match m.run s with
    | .ok _ t => part t = part s
    | .error e _ => F e

section Steady
variable {part : σ → τ} {F : ε → Prop} {m n : EStateM ε σ α} {e : ε} {f : σ → EStateM ε σ α}

theorem Steady.ok {s t : σ} {a : α} (steady : Steady part F m) (ran : m.run s = .ok a t) : part t = part s := by
  simpa only [ran] using steady s

theorem Steady.error {s t : σ} (steady : Steady part F m) (failed : m.run s = .error e t) : F e := by
  simpa only [failed] using steady s

theorem Steady.imp {υ : Type} {less : σ → υ} {G : ε → Prop} (steady : Steady part F m)
    (fewer : ∀ s t, part t = part s → less t = less s) (more : ∀ e, F e → G e) : Steady less G m := by
  intro s
  cases ran : m.run s with
  | ok a t => exact fewer s t (steady.ok ran)
  | error e t => exact more e (steady.error ran)

theorem Steady.any (m : EStateM ε σ α) : Steady (fun _ => ()) (fun _ => True) m := by
  intro s
  cases m.run s <;> trivial

/-- A program that writes what it has read. -/
theorem Steady.update {g : σ → σ → σ} (keeps : ∀ s, part (g s s) = part s)
    (next : ∀ s, Steady part F (f s)) : Steady part F (do let s ← get; modify (g s); f s) := by
  intro s
  have rest := next s (g s s)
  rwa [keeps s] at rest

theorem Steady.pure (a : α) : Steady part F (pure a : EStateM ε σ α) := fun _ => rfl

theorem Steady.modify {f : σ → σ} (keeps : ∀ s, part (f s) = part s) : Steady part F (modify f : EStateM ε σ PUnit) := keeps

theorem Steady.throw (member : F e) : Steady part F (throw e : EStateM ε σ α) := fun _ => member

theorem Steady.bind {f : α → EStateM ε σ β} (first : Steady part F m) (next : ∀ a, Steady part F (f a)) :
    Steady part F (m >>= f) := by
  intro s
  cases ran : (m >>= f).run s with
  | ok b t =>
    obtain ⟨a,u,ran,ran'⟩ := bind_eq_ok.mp ran
    exact ((next a).ok ran').trans (first.ok ran)
  | error e t =>
    rcases bind_eq_error.mp ran with early | ⟨a,u,_,late⟩
    · exact first.error early
    · exact (next a).error late

theorem Steady.get (next : ∀ s, Steady part F (f s)) : Steady part F (get >>= f) :=
  fun s => next s s

theorem Steady.lift {x : Except ε α} (only : FailsOnly F x) : Steady part F (liftM x : EStateM ε σ α) := by
  intro s
  cases x with
  | ok a => rfl
  | error e => exact only e rfl

theorem Steady.refuse {c : Prop} [Decidable c] (member : F e) : Steady part F (refuse c e : EStateM ε σ PUnit) := by
  unfold Stateful.refuse
  split
  · exact .throw member
  · exact .pure _

theorem Steady.orElse {x : Option α} (member : F e) : Steady part F (orElse x e : EStateM ε σ α) := by
  cases x with
  | none => exact .throw member
  | some a => exact .pure a

theorem Steady.zoom {υ χ : Type} {view : σ → υ} {put : υ → σ → σ} {fault : δ → ε} {I : υ → χ} {G : δ → Prop}
    {m : EStateM δ υ α} (steady : Steady I G m) (keeps : ∀ u s, part (put u s) = part s)
    (maps : ∀ d, G d → F (fault d)) : Steady part F (zoom view put fault m) := by
  intro s
  rw [run_zoom]
  cases ran : m.run (view s) with
  | ok a u => exact keeps u s
  | error d u => exact maps d (steady.error ran)

theorem Steady.ite {c : Prop} [Decidable c] (yes : Steady part F m) (no : Steady part F n) :
    Steady part F (if c then m else n) := by
  split
  · exact yes
  · exact no

theorem Steady.forM {f : α → EStateM ε σ PUnit} {xs : List α} (step : ∀ x ∈ xs, Steady part F (f x)) :
    Steady part F (forM xs f) := by
  induction xs with
  | nil => exact .pure _
  | cons x xs ih =>
    exact .bind (step x List.mem_cons_self) fun _ => ih fun y member => step y (List.mem_cons_of_mem _ member)

end Steady

/-- The state a program leaves, whatever its outcome. -/
def left : EStateM.Result ε σ α → σ
  | .ok _ s => s
  | .error _ s => s

/-- From a state a program gets, whatever its outcome, to one that is related to it. -/
def Leads (R : σ → σ → Prop) (m : EStateM ε σ α) (s : σ) : Prop := R s (left (m.run s))

section Leads
variable {R : σ → σ → Prop} {m : EStateM ε σ α} {f : α → EStateM ε σ β} {s t : σ}

theorem Leads.ok {a : α} (leads : Leads R m s) (ran : m.run s = .ok a t) : R s t := by
  rwa [Leads,ran] at leads

theorem Leads.put {a : α} (related : R s t) : Leads R (do set t; pure a : EStateM ε σ α) s := related

theorem Leads.set (related : R s t) : Leads R (set t : EStateM ε σ PUnit) s := related

theorem Leads.get {f : σ → EStateM ε σ α} (next : Leads R (f s) s) : Leads R (get >>= f) s := next

theorem Leads.ite {c : Prop} [Decidable c] {n : EStateM ε σ α} (yes : c → Leads R m s) (no : ¬ c → Leads R n s) :
    Leads R (if c then m else n) s := by
  split_ifs with holds
  · exact yes holds
  · exact no holds

variable [IsPreorder σ R]

theorem Leads.pure (a : α) : Leads R (pure a : EStateM ε σ α) s := refl s

theorem Leads.throw (e : ε) : Leads R (throw e : EStateM ε σ α) s := refl s

theorem Leads.bind (first : Leads R m s) (next : ∀ a t, m.run s = .ok a t → Leads R (f a) t) : Leads R (m >>= f) s := by
  unfold Leads at first ⊢
  rw [EStateM.run_bind]
  cases ran : m.run s with
  | ok a t =>
    rw [ran] at first
    exact IsTrans.trans _ _ _ first (next a t ran)
  | error e t =>
    rw [ran] at first
    exact first

theorem Leads.refuse {c : Prop} [Decidable c] {e : ε} {f : PUnit → EStateM ε σ β} (next : ¬ c → Leads R (f ⟨⟩) s) :
    Leads R (refuse c e >>= f) s := by
  by_cases holds : c
  · rw [Stateful.refuse,if_pos holds]
    exact refl s
  · rw [Stateful.refuse,if_neg holds]
    exact next holds

theorem Leads.orElse {x : Option α} {e : ε} (next : ∀ a, x = some a → Leads R (f a) s) : Leads R (orElse x e >>= f) s := by
  cases x with
  | none => exact refl s
  | some a => exact next a rfl

theorem Leads.lift {x : Except ε α} (next : ∀ a, x = .ok a → Leads R (f a) s) : Leads R (liftM x >>= f) s := by
  cases x with
  | error e => exact refl s
  | ok a => exact next a rfl

end Leads

/-- A program that leaves the state as it was, where it fails. -/
def Atomic (m : EStateM ε σ α) : Prop := ∀ s e t, m.run s = .error e t → t = s

section Atomic
variable {m : EStateM ε σ α} {f : α → EStateM ε σ β}

/-- What comes before the first write only reads. -/
theorem Atomic.bind (first : Atomic m) (reads : ∀ s a t, m.run s = .ok a t → t = s) (next : ∀ a, Atomic (f a)) : Atomic
    (m >>= f) := by
  intro s e t failed
  rcases bind_eq_error.mp failed with early | ⟨a,u,ran,late⟩
  · exact first s e t early
  · exact (next a u e t late).trans (reads s a u ran)

theorem Atomic.get {f : σ → EStateM ε σ α} (next : ∀ s, Atomic (f s)) : Atomic (get >>= f) :=
  fun s e t failed => next s s e t failed

theorem Atomic.lift (x : Except ε α) (next : ∀ a, Atomic (f a)) : Atomic (liftM x >>= f) :=
  .bind (fun _ _ _ failed => (lift_eq_error.mp failed).2.symm) (fun _ _ _ ran => (lift_eq_ok.mp ran).2.symm) next

theorem Atomic.refuse (c : Prop) [Decidable c] (e : ε) {f : PUnit → EStateM ε σ β} (next : ∀ x, Atomic (f x)) :
    Atomic (refuse c e >>= f) :=
  .bind (fun _ _ _ failed => (refuse_eq_error.mp failed).2.2.symm) (fun _ _ _ ran => (refuse_eq_ok.mp ran).2.symm) next

theorem Atomic.set (s : σ) : Atomic (set s : EStateM ε σ PUnit) := fun _ _ _ failed => nomatch failed

end Atomic

/-! ### Contracts -/

/-- From every state meeting `P` the program returns meeting `Q` or fails meeting `E`. -/
def Meets (P : σ → Prop) (m : EStateM ε σ α) (Q : α → σ → Prop) (E : ε → σ → Prop) : Prop :=
  ∀ s, P s →
    match m.run s with
    | .ok a t => Q a t
    | .error e t => E e t

/-- Nothing is said about failures. -/
def AnyError : ε → σ → Prop := fun _ _ => True

section Rules
variable {P P' : σ → Prop} {m : EStateM ε σ α} {Q Q' : α → σ → Prop} {E E' : ε → σ → Prop}

section
variable (meets : Meets P m Q E)
include meets

theorem Meets.ok {s t : σ} {a : α} (pre : P s) (ran : m.run s = .ok a t) : Q a t := by
  have := meets s pre
  rwa [ran] at this

theorem Meets.error {s t : σ} {e : ε} (pre : P s) (failed : m.run s = .error e t) :
    E e t := by
  have := meets s pre
  rwa [failed] at this

theorem Meets.imp (pre : ∀ s, P' s → P s) (post : ∀ a s, Q a s → Q' a s)
    (fault : ∀ e s, E e s → E' e s) : Meets P' m Q' E' := by
  intro s holds
  have := meets s (pre s holds)
  cases ran : m.run s with
  | ok a t => rw [ran] at this; exact post a t this
  | error e t => rw [ran] at this; exact fault e t this

theorem Meets.pre (pre : ∀ s, P' s → P s) : Meets P' m Q E :=
  meets.imp pre (fun _ _ holds => holds) fun _ _ holds => holds

theorem Meets.post (post : ∀ a s, Q a s → Q' a s) : Meets P m Q' E :=
  meets.imp (fun _ holds => holds) post fun _ _ holds => holds

theorem Meets.fault (fault : ∀ e s, E e s → E' e s) : Meets P m Q E' :=
  meets.imp (fun _ holds => holds) (fun _ _ holds => holds) fault

end

theorem Meets.of_ok (post : ∀ s a t, P s → m.run s = .ok a t → Q a t) : Meets P m Q AnyError := by
  intro s holds
  cases ran : m.run s with
  | ok a t => exact post s a t holds ran
  | error e t => trivial

theorem Meets.bind {f : α → EStateM ε σ β} {R : β → σ → Prop} (first : Meets P m Q E)
    (next : ∀ a, Meets (Q a) (f a) R E) : Meets P (m >>= f) R E := by
  intro s holds
  have := first s holds
  rw [EStateM.run_bind]
  cases ran : m.run s with
  | ok a t => rw [ran] at this; exact next a t this
  | error e t => rw [ran] at this; exact this

theorem get_meets {f : σ → EStateM ε σ α} (next : ∀ s, P s → Meets (fun t => s = t) (f s) Q E) :
    Meets P (get >>= f) Q E := fun s holds => next s holds s rfl

theorem Meets.at_state (meets : Meets P m Q E) {s : σ} (holds : P s) : Meets (fun t => s = t) m Q E :=
  meets.pre fun _ same => same ▸ holds

theorem pure_meets {a : α} (holds : ∀ s, P s → Q a s) : Meets P (pure a) Q E := holds

theorem modify_meets {f : σ → σ} {Q : PUnit → σ → Prop} (holds : ∀ s, P s → Q ⟨⟩ (f s)) : Meets P (modify f) Q E := holds

theorem refuse_meets {c : Prop} [Decidable c] {e : ε} {Q : PUnit → σ → Prop} (passes : ∀ s, ¬ c → P s → Q ⟨⟩ s)
    (fails : ∀ s, c → P s → E e s) : Meets P (refuse c e) Q E := by
  intro s holds
  rw [run_refuse]
  split_ifs with refused
  · exact fails s refused holds
  · exact passes s refused holds

theorem orElse_meets {x : Option α} {e : ε} (value : ∀ a s, x = some a → P s → Q a s) (none : ∀ s, P s → E e s) :
    Meets P (orElse x e) Q E := by
  intro s holds
  cases x with
  | none => exact none s holds
  | some a => exact value a s rfl holds

theorem ite_meets {c : Prop} [Decidable c] {n : EStateM ε σ α} (yes : c → Meets P m Q E) (no : ¬ c → Meets P n Q E) :
    Meets P (if c then m else n) Q E := by
  split_ifs with h
  · exact yes h
  · exact no h

/-- A loop over a list keeps an invariant of the state and the work left. -/
theorem forM_meets (I : List α → σ → Prop) {f : α → EStateM ε σ PUnit}
    (step : ∀ x rest, Meets (I (x :: rest)) (f x) (fun _ => I rest) E) (xs : List α) :
    Meets (I xs) (forM xs f) (fun _ => I []) E := by
  induction xs with
  | nil => exact fun _ holds => holds
  | cons x rest ih =>
    rw [List.forM_cons]
    exact (step x rest).bind fun _ => ih

theorem forM_keeps {f : α → EStateM ε σ PUnit} {xs : List α} (step : ∀ x ∈ xs, Meets P (f x) (fun _ => P) E) :
    Meets P (forM xs f) (fun _ => P) E := by
  refine (forM_meets (fun rest s => P s ∧ ∀ x ∈ rest, x ∈ xs) (fun x rest => ?_) xs).imp
    (fun s holds => ⟨holds,fun _ member => member⟩) (fun _ _ holds => holds.1) fun _ _ failed => failed
  rintro s ⟨holds,inside⟩
  exact (step x (inside x List.mem_cons_self)).post
    (fun _ _ later => ⟨later,fun y member => inside y (List.mem_cons_of_mem _ member)⟩) s holds

end Rules

/-! ### Loops that end -/

/-- How a program can end from a state: it returns in a state or fails in one. A program that goes on for ever has no end. -/
abbrev Behaviour (ε σ : Type) := σ → EStateM.Result ε σ Unit → Prop

namespace Behaviour

/-- The one end of a program that is a function. -/
def of (m : EStateM ε σ Unit) : Behaviour ε σ := fun s r => m.run s = r

inductive Seq (first next : Behaviour ε σ) : Behaviour ε σ
  | fails {s e t} (failed : first s (.error e t)) : Seq first next s (.error e t)
  | returns {s t r} (ran : first s (.ok () t)) (rest : next t r) : Seq first next s r

/-- Rounds as long as the state has one. -/
inductive While (round : σ → Option (Behaviour ε σ)) : Behaviour ε σ
  | stops {s} (ended : round s = none) : While round s (.ok () s)
  | fails {s body e t} (next : round s = some body) (failed : body s (.error e t)) : While round s (.error e t)
  | goes {s body t r} (next : round s = some body) (ran : body s (.ok () t)) (rest : While round t r) : While round s r

variable {m n : EStateM ε σ Unit} {A B : Behaviour ε σ} {round : σ → Option (Behaviour ε σ)} {s : σ}

theorem Seq.run (first : A s (m.run s)) (next : ∀ t, m.run s = .ok () t → B t (n.run t)) :
    Seq A B s ((m >>= fun _ => n).run s) := by
  rw [EStateM.run_bind]
  cases ran : m.run s with
  | ok a t =>
    rw [ran] at first
    exact .returns first (next t ran)
  | error e t =>
    rw [ran] at first
    exact .fails first

/-- A loop with a bound ends where the loop without one ends, if the bound leaves no round behind. -/
theorem While.bounded {loop : Nat → EStateM ε σ Unit} {I : Nat → σ → Prop}
    (zero : ∀ s, I 0 s → round s = none ∧ (loop 0).run s = .ok () s)
    (ends : ∀ n s, I (n + 1) s → round s = none → (loop (n + 1)).run s = .ok () s)
    (goes : ∀ n s body, I (n + 1) s → round s = some body → ∃ m, (loop (n + 1)).run s = (m >>= fun _ => loop n).run s ∧
      body s (m.run s) ∧ ∀ t, m.run s = .ok () t → I n t) (n : Nat) (holds : I n s) :
    While round s ((loop n).run s) := by
  induction n generalizing s with
  | zero =>
    obtain ⟨ended,ran⟩ := zero s holds
    rw [ran]
    exact .stops ended
  | succ n ih =>
    cases next : round s with
    | none =>
      rw [ends n s holds next]
      exact .stops next
    | some body =>
      obtain ⟨m,same,does,keeps⟩ := goes n s body holds next
      rw [same,EStateM.run_bind]
      cases ran : m.run s with
      | ok a t =>
        rw [ran] at does
        exact .goes next does (ih (keeps t ran))
      | error e t =>
        rw [ran] at does
        exact .fails next does

end Behaviour

end Stateful
