import Mathlib.Data.List.Basic
import Mathlib.Data.List.Perm.Basic
import Mathlib.Data.List.Count

/-!
# Interleaved atomic tasks

A pool of tasks shares one state.  A task is what a thread still has to do; an
atomic action of a task, given an input of its environment (a signal, a clock
reading, a failure), changes the shared state and replaces the task by the
tasks that continue it: none when the thread ends, several when it starts
others.  The environment may also add a task to the pool at any moment.

A run interleaves such steps in any order.  It is indexed by the labels of its
steps and by a condition that every step meets in the configuration it is taken
in, so that statements about all runs and statements about the runs that avoid
some step have one form.

Main results:

- Theorem `Run.invariant`: an invariant of the guarded steps holds at the end
  of every guarded run.
- Theorem `Step.countP_tasks`: how a step changes the number of the tasks of a kind.
- Theorem `run_of_exec`: an executed schedule is a run.
-/

namespace Interleaving

variable {σ τ ι : Type}

/-- The shared state and the tasks that have not finished. -/
structure Config (σ τ : Type) where
  shared : σ
  tasks : List τ

/-- A step either adds a task to the pool or takes one action of a task. -/
inductive Label (τ ι : Type)
  | call (t : τ)
  | act (t : τ) (x : ι)

/-- One atomic action of each task; `none` where the task cannot take the input. -/
abbrev Actions (σ τ ι : Type) :=
  τ → ι → σ → Option (σ × List τ)

/-- The steps of a pool.  The pool is a bag: a step picks any of its tasks. -/
inductive Step (act : Actions σ τ ι) :
    Config σ τ → Label τ ι → Config σ τ → Prop
  | call (c : Config σ τ) (t : τ) : Step act c (.call t) ⟨c.shared, t :: c.tasks⟩
  | act {c : Config σ τ} {t : τ} {x : ι} {s' : σ} {ts others : List τ}
      (hpool : c.tasks.Perm (t :: others)) (hact : act t x c.shared = some (s', ts)) :
      Step act c (.act t x) ⟨s', ts ++ others⟩

/-- Runs whose every step meets `ok` in the configuration it is taken in. -/
inductive Run (act : Actions σ τ ι) (ok : Config σ τ → Label τ ι → Prop) :
    Config σ τ → List (Label τ ι) → Config σ τ → Prop
  | refl (c : Config σ τ) : Run act ok c [] c
  | tail {c c' c'' : Config σ τ} {ls : List (Label τ ι)} {l : Label τ ι}
      (hrun : Run act ok c ls c') (hstep : Step act c' l c'') (hok : ok c' l) :
      Run act ok c (ls ++ [l]) c''

variable {act : Actions σ τ ι} {ok ok' : Config σ τ → Label τ ι → Prop}
  {c c' c'' : Config σ τ} {l : Label τ ι} {ls ls' : List (Label τ ι)}

/-! ## The pool after a step -/

/-- What the task of a step and the other tasks of the pool are. -/
theorem Step.act_inv {t : τ} {x : ι} (h : Step act c (.act t x) c') :
    ∃ ts others, c.tasks.Perm (t :: others) ∧
      act t x c.shared = some (c'.shared, ts) ∧ c'.tasks = ts ++ others := by
  cases h with
  | act hpool hact => exact ⟨_, _, hpool, hact, rfl⟩

/-- The task that acts is one of the pool. -/
theorem Step.mem_tasks {t : τ} {x : ι} (h : Step act c (.act t x) c') :
    t ∈ c.tasks := by
  obtain ⟨ts, others, hpool, -, -⟩ := h.act_inv
  exact hpool.mem_iff.mpr List.mem_cons_self

/-- A condition on the single tasks is kept when the continuing tasks meet it
and the step does not break it for the others. -/
theorem Step.forall_tasks {J : σ → τ → Prop} {t : τ} {x : ι}
    (h : Step act c (.act t x) c') (hJ : ∀ u ∈ c.tasks, J c.shared u)
    (hnew : ∀ ts, act t x c.shared = some (c'.shared, ts) → ∀ u ∈ ts, J c'.shared u)
    (hstable : ∀ u ∈ c.tasks, J c.shared u → J c'.shared u) :
    ∀ u ∈ c'.tasks, J c'.shared u := by
  obtain ⟨ts, others, hpool, hact, htasks⟩ := h.act_inv
  intro u hu
  rw [htasks] at hu
  rcases List.mem_append.mp hu with hu | hu
  · exact hnew ts hact u hu
  · have hmem : u ∈ c.tasks := hpool.mem_iff.mpr (List.mem_cons_of_mem t hu)
    exact hstable u hmem (hJ u hmem)

/-! ## The tasks of one kind -/

/-- An action of a kind of which the pool has one task is that task's. -/
theorem Step.filter_of_own {p : τ → Bool} {t u : τ} {x : ι}
    (h : Step act c (.act t x) c') (hone : c.tasks.filter p = [u]) (ht : p t = true) :
    t = u ∧ ∃ ts, act t x c.shared = some (c'.shared, ts) ∧
      c'.tasks.filter p = ts.filter p := by
  obtain ⟨ts, others, hpool, hact, htasks⟩ := h.act_inv
  have hfilter := hpool.filter p
  rw [hone, List.filter_cons_of_pos ht] at hfilter
  have hsplit := List.singleton_perm.mp hfilter
  obtain ⟨hu, hothers⟩ := List.cons.inj hsplit
  refine ⟨hu.symm, ts, hact, ?_⟩
  rw [htasks, List.filter_append, ← hothers, List.append_nil]

/-- An action of another kind keeps the tasks of the kind, beside those it starts. -/
theorem Step.filter_of_other {p : τ → Bool} {t : τ} {x : ι}
    (h : Step act c (.act t x) c') (ht : ¬ p t = true) :
    ∃ ts, act t x c.shared = some (c'.shared, ts) ∧
      (c'.tasks.filter p).Perm (ts.filter p ++ c.tasks.filter p) := by
  obtain ⟨ts, others, hpool, hact, htasks⟩ := h.act_inv
  have hfilter := hpool.filter p
  rw [List.filter_cons_of_neg ht] at hfilter
  refine ⟨ts, hact, ?_⟩
  rw [htasks, List.filter_append]
  exact hfilter.symm.append_left _

/-- The number of the tasks that a step makes count, when the others count as before. -/
theorem Step.countP_tasks {p p' : τ → Bool} {t : τ} {x : ι}
    (h : Step act c (.act t x) c')
    (hothers : ∀ others, c.tasks.Perm (t :: others) → ∀ u ∈ others, p' u = p u) :
    ∃ ts, act t x c.shared = some (c'.shared, ts) ∧
      c'.tasks.countP p' + (if p t then 1 else 0) = ts.countP p' + c.tasks.countP p := by
  obtain ⟨ts, others, hpool, hact, htasks⟩ := h.act_inv
  refine ⟨ts, hact, ?_⟩
  have hsame : others.countP p' = others.countP p :=
    List.countP_congr fun u hu => by rw [hothers others hpool u hu]
  rw [htasks, List.countP_append, hsame, hpool.countP_eq, List.countP_cons]
  omega

/-! ## Runs -/

/-- A weaker condition is met by the same run. -/
theorem Run.mono (hrun : Run act ok c ls c')
    (himp : ∀ d k, ok d k → ok' d k) : Run act ok' c ls c' := by
  induction hrun with
  | refl => exact .refl _
  | tail _ hstep hok ih => exact .tail ih hstep (himp _ _ hok)

/-- Runs compose. -/
theorem Run.trans (h₁ : Run act ok c ls c') (h₂ : Run act ok c' ls' c'') :
    Run act ok c (ls ++ ls') c'' := by
  induction h₂ with
  | refl => simpa using h₁
  | tail _ hstep hok ih =>
      rw [← List.append_assoc]
      exact .tail ih hstep hok

theorem Run.single (hstep : Step act c l c') (hok : ok c l) : Run act ok c [l] c' :=
  .tail (.refl c) hstep hok

/-- An invariant of the guarded steps holds at the end of every guarded run. -/
theorem Run.invariant {I : Config σ τ → Prop} (hrun : Run act ok c ls c') (h : I c)
    (hpres : ∀ d k d', I d → ok d k → Step act d k d' → I d') : I c' := by
  induction hrun with
  | refl => exact h
  | tail _ hstep hok ih => exact hpres _ _ _ ih hok hstep

/-! ## Executing a schedule -/

/-- A scheduler's choice: call a task, or let the task at a position act. -/
inductive Move (τ ι : Type)
  | call (t : τ)
  | act (position : Nat) (x : ι)

/-- One move of the scheduler. -/
def Config.move (act : Actions σ τ ι) (c : Config σ τ) :
    Move τ ι → Option (Label τ ι × Config σ τ)
  | .call t => some (.call t, ⟨c.shared, t :: c.tasks⟩)
  | .act i x =>
      match c.tasks[i]? with
      | none => none
      | some t =>
          match act t x c.shared with
          | none => none
          | some (s', ts) => some (.act t x, ⟨s', ts ++ c.tasks.eraseIdx i⟩)

/-- A whole schedule, with the labels of its steps; every step must pass a test in
the configuration it is taken in. -/
def Config.exec (act : Actions σ τ ι) (q : Config σ τ → Label τ ι → Bool)
    (c : Config σ τ) : List (Move τ ι) → Option (List (Label τ ι) × Config σ τ)
  | [] => some ([], c)
  | m :: ms =>
      match c.move act m with
      | none => none
      | some (l, c') =>
          if q c l then
            match c'.exec act q ms with
            | none => none
            | some (ls, c'') => some (l :: ls, c'')
          else none

theorem step_of_move {m : Move τ ι} (h : c.move act m = some (l, c')) :
    Step act c l c' := by
  cases m with
  | call t =>
      simp only [Config.move, Option.some.injEq, Prod.mk.injEq] at h
      rcases h with ⟨rfl, rfl⟩
      exact .call c t
  | act i x =>
      simp only [Config.move] at h
      split at h
      · cases h
      · rename_i t ht
        split at h
        · cases h
        · rename_i s' ts hact
          simp only [Option.some.injEq, Prod.mk.injEq] at h
          rcases h with ⟨rfl, rfl⟩
          obtain ⟨hlt, hget⟩ := List.getElem?_eq_some_iff.mp ht
          refine .act ?_ hact
          rw [← hget]
          exact (List.getElem_cons_eraseIdx_perm hlt).symm

/-- An executed schedule is a run. -/
theorem run_of_exec {q : Config σ τ → Label τ ι → Bool} {ms : List (Move τ ι)}
    (h : c.exec act q ms = some (ls, c')) :
    Run act (fun d k => q d k = true) c ls c' := by
  induction ms generalizing c ls with
  | nil =>
      simp only [Config.exec, Option.some.injEq, Prod.mk.injEq] at h
      rcases h with ⟨rfl, rfl⟩
      exact .refl _
  | cons m ms ih =>
      simp only [Config.exec] at h
      split at h
      · cases h
      · rename_i k d hmove
        split at h
        · rename_i hok
          split at h
          · cases h
          · rename_i ks e hexec
            simp only [Option.some.injEq, Prod.mk.injEq] at h
            rcases h with ⟨rfl, rfl⟩
            exact (Run.single (step_of_move hmove) hok).trans (ih hexec)
        · cases h

/-- A move whose outcome passes a test is a step to such an outcome. -/
theorem exists_step_of_move (m : Move τ ι) (q : Label τ ι → Config σ τ → Bool)
    (h : (c.move act m).any (fun p => q p.1 p.2) = true) :
    ∃ k d, Step act c k d ∧ q k d = true := by
  cases hmove : c.move act m with
  | none =>
      rw [hmove] at h
      cases h
  | some p =>
      rw [hmove] at h
      exact ⟨p.1, p.2, step_of_move hmove, h⟩

/-- A schedule whose outcome passes a test is a run to such an outcome. -/
theorem exists_run_of_exec (act : Actions σ τ ι) (q : Config σ τ → Label τ ι → Bool)
    (c : Config σ τ) (ms : List (Move τ ι)) (p : List (Label τ ι) → Config σ τ → Bool)
    (h : (c.exec act q ms).any (fun e => p e.1 e.2) = true) :
    ∃ ls d, Run act (fun d k => q d k = true) c ls d ∧ p ls d = true := by
  cases hexec : c.exec act q ms with
  | none =>
      rw [hexec] at h
      cases h
  | some e =>
      rw [hexec] at h
      exact ⟨e.1, e.2, run_of_exec hexec, h⟩

end Interleaving
