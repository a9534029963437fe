import Mathlib.Algebra.GroupWithZero.Nat
import Mathlib.Data.List.Basic

/-!
# Transducers

A machine that reads symbols one after the other, gives some output for each of them, and may
refuse one.

Main results:

- Theorem `run_append`: a run over two lists, one behind the other.
- Theorem `invariant_run`: what every step keeps, and what it makes sure of its output.
- Theorem `history_run`: what every step keeps of the state and the output together.
- Theorem `weight_run`: an output that no step lets grow by more than one.
-/

namespace ArtPlatform.Transducer

variable {σ α β : Type}

def run (step : σ → α → Option (σ × List β)) (s : σ) : List α → Option (σ × List β)
  | [] => some (s, [])
  | a :: as => (step s a).bind fun next =>
      (run step next.1 as).map fun last => (last.1, next.2 ++ last.2)

variable {step : σ → α → Option (σ × List β)} {s t u : σ} {a : α} {as bs : List α}
  {out : List β}

attribute [local simp] run in
theorem run_cons {first : List β} (h : step s a = some (t, first)) (as : List α) :
    run step s (a :: as) = (run step t as).map fun last => (last.1, first ++ last.2) := by
  simp [h]

theorem run_singleton (step : σ → α → Option (σ × List β)) (s : σ) (a : α) :
    run step s [a] = step s a := by
  rw [run]
  cases step s a with
  | none => rfl
  | some next => simp [run]

theorem run_cons_inv (h : run step s (a :: as) = some (u, out)) :
    ∃ t first rest, step s a = some (t, first) ∧ run step t as = some (u, rest) ∧
      out = first ++ rest := by
  rw [run, Option.bind_eq_some_iff] at h
  obtain ⟨⟨t, first⟩, hstep, h⟩ := h
  obtain ⟨⟨v, rest⟩, hrest, heq⟩ := Option.map_eq_some_iff.mp h
  cases heq
  exact ⟨t, first, rest, hstep, hrest, rfl⟩

theorem run_append (step : σ → α → Option (σ × List β)) (s : σ) (as bs : List α) :
    run step s (as ++ bs) = (run step s as).bind fun mid =>
      (run step mid.1 bs).map fun last => (last.1, mid.2 ++ last.2) := by
  induction as generalizing s with
  | nil => simp [run]
  | cons a as ih =>
      rw [List.cons_append, run, run]
      cases step s a with
      | none => rfl
      | some next =>
          simp only [Option.bind_some]
          rw [ih]
          cases run step next.1 as with
          | none => rfl
          | some mid => simp [Function.comp_def]

theorem run_append_of (h : run step s as = some (t, out)) (bs : List α) :
    run step s (as ++ bs) = (run step t bs).map fun last => (last.1, out ++ last.2) := by
  rw [run_append, h, Option.bind_some]

theorem run_append_some {out' : List β} (h : run step s as = some (t, out))
    (h' : run step t bs = some (u, out')) : run step s (as ++ bs) = some (u, out ++ out') := by
  rw [run_append_of h, h', Option.map_some]

theorem run_append_inv (h : run step s (as ++ bs) = some (u, out)) :
    ∃ t first rest, run step s as = some (t, first) ∧ run step t bs = some (u, rest) ∧
      out = first ++ rest := by
  rw [run_append, Option.bind_eq_some_iff] at h
  obtain ⟨⟨t, first⟩, hfirst, h⟩ := h
  obtain ⟨⟨v, rest⟩, hrest, heq⟩ := Option.map_eq_some_iff.mp h
  cases heq
  exact ⟨t, first, rest, hfirst, hrest, rfl⟩

theorem invariant_run {Inv : σ → Prop} {P : β → Prop}
    (hstep : ∀ s a t first, Inv s → step s a = some (t, first) → Inv t ∧ ∀ b ∈ first, P b)
    (hs : Inv s) (h : run step s as = some (u, out)) : Inv u ∧ ∀ b ∈ out, P b := by
  induction as generalizing s out with
  | nil =>
      cases h
      exact ⟨hs, fun b hb => absurd hb List.not_mem_nil⟩
  | cons a as ih =>
      obtain ⟨t, first, rest, hfirst, hrest, rfl⟩ := run_cons_inv h
      obtain ⟨ht, hout⟩ := hstep s a t first hs hfirst
      obtain ⟨hu, hlast⟩ := ih ht hrest
      refine ⟨hu, fun b hb => ?_⟩
      rcases List.mem_append.mp hb with hb | hb
      · exact hout b hb
      · exact hlast b hb

/-- What every step keeps of the state and of all the output until then. -/
theorem history_run {Inv : σ → List β → Prop}
    (hstep : ∀ s a t first before, Inv s before → step s a = some (t, first) →
      Inv t (before ++ first))
    {before : List β} (hs : Inv s before) (h : run step s as = some (u, out)) :
    Inv u (before ++ out) := by
  induction as generalizing s before out with
  | nil =>
      cases h
      rwa [List.append_nil]
  | cons a as ih =>
      obtain ⟨t, first, rest, hfirst, hrest, rfl⟩ := run_cons_inv h
      have hlast := ih (hstep s a t first before hs hfirst) hrest
      rwa [List.append_assoc] at hlast

/-- Where each step adds at most one to the size of the state and the weight of the output,
a run adds at most the length of what it reads. -/
theorem weight_run {size : σ → Nat} {weight : β → Nat}
    (hstep : ∀ s a t first, step s a = some (t, first) →
      (first.map weight).sum + size t ≤ size s + 1)
    (h : run step s as = some (u, out)) : (out.map weight).sum + size u ≤ size s + as.length := by
  induction as generalizing s out with
  | nil =>
      cases h
      simp
  | cons a as ih =>
      obtain ⟨t, first, rest, hfirst, hrest, rfl⟩ := run_cons_inv h
      have hone := hstep s a t first hfirst
      have hmany := ih hrest
      rw [List.map_append, List.sum_append, List.length_cons]
      omega

end ArtPlatform.Transducer
