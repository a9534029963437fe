import Mathlib.Tactic.Common

/-!
# Shortcuts behind a check

A run that may fail has a shortcut: a check looks whether anything has to be done,
and when it finds nothing the fast path runs in place of the full one.  The check
may itself fail, and the full path taken after a negative check may differ from the
reference in what the relation `R` does not look at.

Main results:

- Theorem `agrees_ok_iff`: agreement of two runs that succeed.
- Theorem `agrees_shortcut_iff`: exactly when the run with the shortcut agrees with
  the full run.
-/

section Shortcut

variable {σ ε : Type}

/-- Wherever the reference succeeds, the run succeeds with a related result.  So the
run fails only where the reference does. -/
def Agrees (R : σ → σ → Prop) (run reference : Except ε σ) : Prop :=
  ∀ r, reference = .ok r → ∃ s, run = .ok s ∧ R s r

/-- The run that takes the fast path when the check finds nothing to do. -/
def shortcut (unchanged : Except ε Bool) (fast full : Except ε σ) : Except ε σ := do
  if ← unchanged then fast else full

/-- A sequence that succeeds has succeeded in its first part. -/
theorem exists_of_bind_eq_ok {α β : Type} {x : Except ε α} {f : α → Except ε β} {b : β}
    (h : (x >>= f) = .ok b) : ∃ a, x = .ok a ∧ f a = .ok b := by
  cases x with
  | error e => cases h
  | ok a => exact ⟨a, rfl, h⟩

theorem exists_of_map_eq_ok {α β : Type} {x : Except ε α} {f : α → β} {b : β}
    (h : x.map f = .ok b) : ∃ a, x = .ok a ∧ f a = b := by
  cases x with
  | error e => cases h
  | ok a =>
      cases h
      exact ⟨a, rfl, rfl⟩

/-- Another description of the failure does not change a success. -/
theorem eq_ok_of_mapError_eq_ok {α ε' : Type} {x : Except ε α} {f : ε → ε'} {a : α}
    (h : x.mapError f = .ok a) : x = .ok a := by
  cases x with
  | error e => cases h
  | ok a' =>
      cases h
      rfl

/-- A sequence whose second part cannot fail succeeds with its first part. -/
theorem exists_bind_eq_ok_iff {α β : Type} {x : Except ε α} {f : α → Except ε β}
    (hf : ∀ a, ∃ b, f a = .ok b) : (∃ b, (x >>= f) = .ok b) ↔ ∃ a, x = .ok a := by
  constructor
  · rintro ⟨b, hb⟩
    rcases exists_of_bind_eq_ok hb with ⟨a, ha, -⟩
    exact ⟨a, ha⟩
  · rintro ⟨a, rfl⟩
    exact hf a

theorem exists_map_eq_ok_iff {α β : Type} {x : Except ε α} {f : α → β} :
    (∃ b, x.map f = .ok b) ↔ ∃ a, x = .ok a := by
  cases x with
  | error e => exact iff_of_false (fun ⟨_, h⟩ => nomatch h) (fun ⟨_, h⟩ => nomatch h)
  | ok a => exact iff_of_true ⟨f a, rfl⟩ ⟨a, rfl⟩

variable {R : σ → σ → Prop} {run reference full fast : Except ε σ} {s r : σ}

/-- A failing reference asks for nothing. -/
theorem agrees_of_error {e : ε} (h : reference = .error e) : Agrees R run reference := by
  intro r hr
  rw [h] at hr
  cases hr

theorem agrees_ok_iff (hrun : run = .ok s) (href : reference = .ok r) :
    Agrees R run reference ↔ R s r := by
  constructor
  · intro h
    rcases h r href with ⟨s', hs', hR⟩
    rw [hrun] at hs'
    cases hs'
    exact hR
  · intro hR r' hr'
    rw [href] at hr'
    cases hr'
    exact ⟨s, hrun, hR⟩

/-- Two runs that go on from one computation agree exactly when its results lead to
related results. -/
theorem agrees_map_iff {α : Type} (x : Except ε α) (f g : α → σ) :
    Agrees R (x.map f) (x.map g) ↔ ∀ a, x = .ok a → R (f a) (g a) := by
  cases x with
  | error e =>
      refine iff_of_true (agrees_of_error rfl) ?_
      intro a ha
      cases ha
  | ok b =>
      refine (agrees_ok_iff rfl rfl).trans ?_
      constructor
      · intro h a ha
        cases ha
        exact h
      · intro h
        exact h b rfl

theorem not_agrees_of_error {e : ε} (hrun : run = .error e) (href : reference = .ok r) :
    ¬ Agrees R run reference := by
  intro h
  rcases h r href with ⟨s, hs, -⟩
  rw [hrun] at hs
  cases hs

/-- A run with a shortcut agrees with the full run exactly when the check does not
fail, and a check that finds nothing to do finds the fast path in agreement. -/
theorem agrees_shortcut_iff (hfull : Agrees R full reference) (unchanged : Except ε Bool) :
    Agrees R (shortcut unchanged fast full) reference ↔
      ∀ r, reference = .ok r →
        unchanged = .ok false ∨ unchanged = .ok true ∧ Agrees R fast reference := by
  constructor
  · intro h r hr
    cases hcheck : unchanged with
    | error e =>
        rw [hcheck] at h
        exact absurd h (not_agrees_of_error rfl hr)
    | ok b =>
        cases b with
        | false => exact .inl rfl
        | true =>
            rw [hcheck] at h
            exact .inr ⟨rfl, h⟩
  · intro h r hr
    rcases h r hr with hcheck | ⟨hcheck, hfast⟩
    · rw [hcheck]
      exact hfull r hr
    · rw [hcheck]
      exact hfast r hr

end Shortcut
