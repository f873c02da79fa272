import Mathlib.Data.List.Basic

/-!
# Programs that throw

In `ExceptT ε (StateM σ)` a program returns or throws, and what it wrote before
it threw stays written. `Ends` says of one run where it may return and where it
may throw. Each way to build a program has a rule that reduces `Ends` of the
whole to `Ends` of its parts, so a proof follows the text of the program.
-/

namespace ThrowingPrograms

variable {ε σ α β : Type}

/-- Started in `s`, the program returns as `Q` says or throws as `E` says. -/
def Ends (x : ExceptT ε (StateM σ) α) (s : σ) (Q : α → σ → Prop) (E : ε → σ → Prop) : Prop :=
  match x.run.run s with
  | (.ok a, t) => Q a t
  | (.error e, t) => E e t

instance {x : ExceptT ε (StateM σ) α} {s : σ} {Q : α → σ → Prop} {E : ε → σ → Prop}
    [∀ a t, Decidable (Q a t)] [∀ e t, Decidable (E e t)] : Decidable (Ends x s Q E) :=
  match h : x.run.run s with
  | (.ok a, t) => decidable_of_iff (Q a t) (by simp only [Ends, h])
  | (.error e, t) => decidable_of_iff (E e t) (by simp only [Ends, h])

/-- The state left behind, however the program ends. -/
def final (x : ExceptT ε (StateM σ) α) (s : σ) : σ := (x.run.run s).2

/-- The outcome of a program as a value. -/
def attempt (x : ExceptT ε (StateM σ) α) : ExceptT ε (StateM σ) (Except ε α) :=
  ExceptT.lift x.run

/-- Raises what a pure function raises. -/
def raised (x : Except ε α) : ExceptT ε (StateM σ) α := ExceptT.mk (pure x)

theorem run_pure (a : α) (s : σ) : (pure a : ExceptT ε (StateM σ) α).run.run s = (.ok a, s) := rfl

theorem run_throw (e : ε) (s : σ) :
    (throw e : ExceptT ε (StateM σ) α).run.run s = (.error e, s) := rfl

theorem run_get (s : σ) : (get : ExceptT ε (StateM σ) σ).run.run s = (.ok s, s) := rfl

theorem run_set (t s : σ) : (set t : ExceptT ε (StateM σ) PUnit).run.run s = (.ok ⟨⟩, t) := rfl

theorem run_modify (f : σ → σ) (s : σ) :
    (modify f : ExceptT ε (StateM σ) PUnit).run.run s = (.ok ⟨⟩, f s) := rfl

theorem run_bind (x : ExceptT ε (StateM σ) α) (f : α → ExceptT ε (StateM σ) β) (s : σ) :
    (x >>= f).run.run s = match x.run.run s with
      | (.ok a, t) => (f a).run.run t
      | (.error e, t) => (.error e, t) := by
  simp only [ExceptT.run_bind, StateT.run_bind]
  rcases x.run.run s with ⟨e | a, t⟩ <;> rfl

section Rules

variable {s : σ} {Q : α → σ → Prop} {R : β → σ → Prop} {E : ε → σ → Prop}

theorem Ends.mono {x : ExceptT ε (StateM σ) α} {Q' : α → σ → Prop} {E' : ε → σ → Prop}
    (h : Ends x s Q E) (returns : ∀ a t, Q a t → Q' a t) (throws : ∀ e t, E e t → E' e t) :
    Ends x s Q' E' := by
  revert h
  simp only [Ends]
  split
  · exact returns _ _
  · exact throws _ _

theorem Ends.and {x : ExceptT ε (StateM σ) α} {Q' : α → σ → Prop} {E' : ε → σ → Prop}
    (h : Ends x s Q E) (h' : Ends x s Q' E') :
    Ends x s (fun a t => Q a t ∧ Q' a t) (fun e t => E e t ∧ E' e t) := by
  revert h h'
  simp only [Ends]
  split <;> exact And.intro

theorem Ends.returned {x : ExceptT ε (StateM σ) α} {t : σ} {a : α} (ends : Ends x s Q E)
    (returns : x.run.run s = (.ok a, t)) : Q a t := by
  rw [Ends, returns] at ends
  exact ends

theorem ends_trivial (x : ExceptT ε (StateM σ) α) (s : σ) :
    Ends x s (fun _ _ => True) (fun _ _ => True) := by
  simp only [Ends]
  split <;> trivial

theorem ends_pure (a : α) : Ends (pure a : ExceptT ε (StateM σ) α) s Q E ↔ Q a s := Iff.rfl

theorem ends_throw (e : ε) : Ends (throw e : ExceptT ε (StateM σ) α) s Q E ↔ E e s := Iff.rfl

theorem ends_get {Q : σ → σ → Prop} : Ends (get : ExceptT ε (StateM σ) σ) s Q E ↔ Q s s := Iff.rfl

theorem ends_set (t : σ) {Q : PUnit → σ → Prop} :
    Ends (set t : ExceptT ε (StateM σ) PUnit) s Q E ↔ Q ⟨⟩ t := Iff.rfl

theorem ends_modify (f : σ → σ) {Q : PUnit → σ → Prop} :
    Ends (modify f : ExceptT ε (StateM σ) PUnit) s Q E ↔ Q ⟨⟩ (f s) := Iff.rfl

theorem ends_bind (x : ExceptT ε (StateM σ) α) (f : α → ExceptT ε (StateM σ) β) :
    Ends (x >>= f) s R E ↔ Ends x s (fun a t => Ends (f a) t R E) E := by
  simp only [Ends, run_bind]
  rcases x.run.run s with ⟨e | a, t⟩ <;> rfl

/-- A loop: `I` says what holds when part of the list is done. -/
theorem Ends.forM {I : List α → σ → Prop} {step : α → ExceptT ε (StateM σ) PUnit} {xs : List α}
    (each : ∀ done, ∀ x ∈ xs, ∀ s, I done s → Ends (step x) s (fun _ t => I (done ++ [x]) t) E)
    (before : I [] s) : Ends (xs.forM step) s (fun _ t => I xs t) E := by
  have onward : ∀ later done s, later ⊆ xs → I done s →
      Ends (later.forM step) s (fun _ t => I (done ++ later) t) E := by
    intro later
    induction later with
    | nil =>
      intro done s _ holds
      rw [List.append_nil]
      exact holds
    | cons x later ih =>
      intro done s inside holds
      obtain ⟨mem, rest⟩ := List.cons_subset.mp inside
      change Ends (step x >>= fun _ => later.forM step) s _ E
      rw [ends_bind]
      refine (each done x mem s holds).mono (fun _ t next => ?_) fun _ _ thrown => thrown
      rw [List.append_cons]
      exact ih _ t rest next
  exact onward xs [] s (List.Subset.refl _) before

theorem ends_tryCatch (x : ExceptT ε (StateM σ) α) (handle : ε → ExceptT ε (StateM σ) α) :
    Ends (tryCatch x handle) s Q E ↔ Ends x s Q (fun e t => Ends (handle e) t Q E) := by
  have step : (tryCatch x handle).run.run s = match x.run.run s with
      | (.ok a, t) => (.ok a, t)
      | (.error e, t) => (handle e).run.run t := by
    rw [ExceptT.run_tryCatch, StateT.run_bind]
    rcases x.run.run s with ⟨e | a, t⟩ <;> rfl
  simp only [Ends, step]
  rcases x.run.run s with ⟨e | a, t⟩ <;> rfl

theorem ends_attempt (x : ExceptT ε (StateM σ) α) {Q : Except ε α → σ → Prop} :
    Ends (attempt x) s Q E ↔ Ends x s (fun a => Q (.ok a)) (fun e => Q (.error e)) := by
  have step : (attempt x).run.run s = (.ok (x.run.run s).1, (x.run.run s).2) := by
    simp only [attempt, ExceptT.run_lift, StateT.run_map]
    rfl
  simp only [Ends, step]
  rcases x.run.run s with ⟨e | a, t⟩ <;> rfl

theorem ends_raised (x : Except ε α) :
    Ends (raised x) s Q E ↔ (∀ a, x = .ok a → Q a s) ∧ ∀ e, x = .error e → E e s := by
  rcases x with e | a
  · constructor
    · intro h
      exact ⟨fun _ same => (nomatch same), fun _ same => by cases same; exact h⟩
    · intro h
      exact h.2 e rfl
  · constructor
    · intro h
      exact ⟨fun _ same => by cases same; exact h, fun _ same => (nomatch same)⟩
    · intro h
      exact h.1 a rfl

theorem ends_final {x : ExceptT ε (StateM σ) α} {P : σ → Prop} :
    Ends x s (fun _ => P) (fun _ => P) ↔ P (final x s) := by
  simp only [Ends, final]
  rcases x.run.run s with ⟨e | a, t⟩ <;> rfl

end Rules

/-- The program keeps `P`, whether it returns or throws. -/
def Keeps (P : σ → Prop) (x : ExceptT ε (StateM σ) α) : Prop :=
  ∀ s, P s → Ends x s (fun _ => P) (fun _ => P)

section Keeping

variable {P : σ → Prop}

theorem keeps_pure (a : α) : Keeps P (pure a : ExceptT ε (StateM σ) α) := fun _ h => h

theorem keeps_throw (e : ε) : Keeps P (throw e : ExceptT ε (StateM σ) α) := fun _ h => h

theorem Keeps.bind {x : ExceptT ε (StateM σ) α} {f : α → ExceptT ε (StateM σ) β}
    (hx : Keeps P x) (hf : ∀ a, Keeps P (f a)) : Keeps P (x >>= f) := by
  intro s h
  rw [ends_bind]
  exact (hx s h).mono (fun a t kept => hf a t kept) (fun _ _ kept => kept)

theorem Keeps.tryCatch {x : ExceptT ε (StateM σ) α} {handle : ε → ExceptT ε (StateM σ) α}
    (hx : Keeps P x) (hh : ∀ e, Keeps P (handle e)) : Keeps P (tryCatch x handle) := by
  intro s h
  rw [ends_tryCatch]
  exact (hx s h).mono (fun _ _ kept => kept) (fun e t kept => hh e t kept)

theorem Keeps.attempt {x : ExceptT ε (StateM σ) α} (hx : Keeps P x) :
    Keeps P (ThrowingPrograms.attempt x) := by
  intro s h
  rw [ends_attempt]
  exact hx s h

theorem Keeps.forM {step : α → ExceptT ε (StateM σ) PUnit} {xs : List α}
    (each : ∀ x ∈ xs, Keeps P (step x)) : Keeps P (xs.forM step) :=
  fun _ h => Ends.forM (I := fun _ => P) (fun _ x mem s kept => each x mem s kept) h

end Keeping

section Loops

/-- `P` holds before every step that the loop over `xs` takes from `s`. -/
def Along (P : σ → α → Prop) (step : α → ExceptT ε (StateM σ) PUnit) : σ → List α → Prop
  | _, [] => True
  | s, x :: xs => P s x ∧ Ends (step x) s (fun _ t => Along P step t xs) (fun _ _ => True)

variable {step : α → ExceptT ε (StateM σ) PUnit} {E : ε → σ → Prop}

instance decidableAlong {P : σ → α → Prop} [∀ s x, Decidable (P s x)] :
    ∀ (s : σ) (xs : List α), Decidable (Along P step s xs)
  | _, [] => isTrue trivial
  | s, x :: xs =>
    have : ∀ t, Decidable (Along P step t xs) := fun t => decidableAlong t xs
    inferInstanceAs
      (Decidable (P s x ∧ Ends (step x) s (fun _ t => Along P step t xs) (fun _ _ => True)))

/-- `I done` holds when the loop has taken the steps of `done`. -/
theorem ends_forM_along {P : σ → α → Prop} {I : List α → σ → Prop}
    (keeps : ∀ done x s, I done s → P s x → Ends (step x) s (fun _ t => I (done ++ [x]) t) E)
    {xs : List α} : ∀ {done : List α} {s : σ}, Along P step s xs → I done s →
      Ends (xs.forM step) s (fun _ t => I (done ++ xs) t) E := by
  induction xs with
  | nil =>
    intro done s _ holds
    rw [List.append_nil]
    exact holds
  | cons x xs ih =>
    intro done s along holds
    change Ends (step x >>= fun _ => xs.forM step) s _ E
    rw [ends_bind]
    refine ((keeps done x s holds along.1).and along.2).mono ?_ fun _ _ h => h.1
    rintro _ t ⟨stepped, later⟩
    have whole := ih later stepped
    rwa [List.append_assoc, List.singleton_append] at whole

/-- The invariant of a loop, indexed by the part of the list that is done. -/
theorem ends_loop {P : σ → α → Prop} {I : List α → σ → Prop} {xs : List α} {s : σ}
    (along : Along P step s xs) (init : I [] s)
    (keeps : ∀ done x s, I done s → P s x → Ends (step x) s (fun _ t => I (done ++ [x]) t) E) :
    Ends (xs.forM step) s (fun _ t => I xs t) E :=
  ends_forM_along keeps along init

theorem along_trivial (s : σ) (xs : List α) : Along (fun _ _ => True) step s xs := by
  induction xs generalizing s with
  | nil => trivial
  | cons x xs ih =>
    refine ⟨trivial, (ends_trivial (step x) s).mono (fun _ t _ => ih t) fun _ _ h => h⟩

end Loops

end ThrowingPrograms
