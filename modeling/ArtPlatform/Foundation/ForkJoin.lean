import Mathlib.Logic.Relation

/-!
# Processes that fork and join

A process is built from actions on a shared state by doing one thing after another and
by doing two things side by side.  What stands after a fork begins when both of its sides
have come to their end.  An action takes an input of the environment, changes the state
and is replaced by a process that continues it, so what a thread has read before is kept
in its next action.

Main results:

- Theorem `Run.seq_inv`: what is done one after the other has a moment between the two.
- Theorem `Triple.of_keeps`: what every action of a process keeps holds at its end, in
  whatever order the threads act.
- Theorems `Triple.seq`, `Triple.act`: the rules for what is done in order.
- Theorem `run_of_runLeft`: one schedule, executed.
-/

namespace ForkJoin

inductive Process (α : Type)
  | skip
  | act (a : α)
  | seq (p q : Process α)
  | par (p q : Process α)

variable {σ ι α : Type}

namespace Process

/-- The processes of a list, one after the other. -/
def sequence : List (Process α) → Process α
  | [] => skip
  | p :: ps => seq p (sequence ps)

/-- The processes of a list, side by side. -/
def parallel : List (Process α) → Process α
  | [] => skip
  | p :: ps => par p (parallel ps)

def isSkip : Process α → Bool
  | skip => true
  | _ => false

/-- Every action of the process meets a condition. -/
def Forall (J : α → Prop) : Process α → Prop
  | skip => True
  | act a => J a
  | seq p q => p.Forall J ∧ q.Forall J
  | par p q => p.Forall J ∧ q.Forall J

theorem forall_of_forall {J : α → Prop} (h : ∀ a, J a) (p : Process α) : p.Forall J := by
  induction p with
  | skip => trivial
  | act a => exact h a
  | seq p q ihp ihq => exact ⟨ihp, ihq⟩
  | par p q ihp ihq => exact ⟨ihp, ihq⟩

theorem forall_sequence {J : α → Prop} {ps : List (Process α)}
    (h : ∀ p ∈ ps, p.Forall J) : (sequence ps).Forall J := by
  induction ps with
  | nil => trivial
  | cons p ps ih =>
      simp only [List.forall_mem_cons] at h
      exact ⟨h.1, ih h.2⟩

theorem forall_parallel {J : α → Prop} {ps : List (Process α)}
    (h : ∀ p ∈ ps, p.Forall J) : (parallel ps).Forall J := by
  induction ps with
  | nil => trivial
  | cons p ps ih =>
      simp only [List.forall_mem_cons] at h
      exact ⟨h.1, ih h.2⟩

end Process

open Process

/-- What an action does with an input; `none` where it does not take the input. -/
abbrev Actions (σ ι α : Type) :=
  α → ι → σ → Option (σ × Process α)

/-- One step of a process, by any of its threads. -/
inductive Step (perform : Actions σ ι α) : σ × Process α → σ × Process α → Prop
  | act {s s' : σ} {a : α} {x : ι} {p : Process α} (h : perform a x s = some (s', p)) :
      Step perform (s, .act a) (s', p)
  | seq {s s' : σ} {p p' : Process α} (q : Process α) (h : Step perform (s, p) (s', p')) :
      Step perform (s, .seq p q) (s', .seq p' q)
  | next (s : σ) (q : Process α) : Step perform (s, .seq .skip q) (s, q)
  | left {s s' : σ} {p p' : Process α} (q : Process α) (h : Step perform (s, p) (s', p')) :
      Step perform (s, .par p q) (s', .par p' q)
  | right {s s' : σ} {q q' : Process α} (p : Process α) (h : Step perform (s, q) (s', q')) :
      Step perform (s, .par p q) (s', .par p q')
  | join (s : σ) : Step perform (s, .par .skip .skip) (s, .skip)

/-- Any number of steps. -/
abbrev Run (perform : Actions σ ι α) : σ × Process α → σ × Process α → Prop :=
  Relation.ReflTransGen (Step perform)

variable {perform : Actions σ ι α}

/-! ## Runs to the end of a process -/

theorem not_step_skip {s : σ} {c : σ × Process α} : ¬ Step perform (s, .skip) c := by
  intro h
  cases h

/-- Nothing happens after the end. -/
theorem Run.skip_inv {s : σ} {c : σ × Process α} (h : Run perform (s, .skip) c) :
    c = (s, .skip) := by
  cases h.cases_head with
  | inl h => exact h.symm
  | inr h =>
      obtain ⟨d, hstep, -⟩ := h
      exact absurd hstep not_step_skip

theorem Run.act_inv {s s' : σ} {a : α} (h : Run perform (s, .act a) (s', .skip)) :
    ∃ x s₁ p, perform a x s = some (s₁, p) ∧ Run perform (s₁, p) (s', .skip) := by
  cases h.cases_head with
  | inl h => cases h
  | inr h =>
      obtain ⟨d, hstep, hrun⟩ := h
      cases hstep with
      | act hact => exact ⟨_, _, _, hact, hrun⟩

/-- What is done one after the other has a moment between the two. -/
theorem Run.seq_inv {s s' : σ} {p q : Process α}
    (h : Run perform (s, .seq p q) (s', .skip)) :
    ∃ s₁, Run perform (s, p) (s₁, .skip) ∧ Run perform (s₁, q) (s', .skip) := by
  generalize hc : (s, Process.seq p q) = c at h
  induction h using Relation.ReflTransGen.head_induction_on generalizing s p with
  | refl => cases hc
  | head hstep hrun ih =>
      subst hc
      cases hstep with
      | seq _ h =>
          obtain ⟨s₁, hfirst, hsecond⟩ := ih rfl
          exact ⟨s₁, .head h hfirst, hsecond⟩
      | next => exact ⟨s, .refl, hrun⟩

/-! ## Pre- and postconditions -/

/-- From a state with `P`, the process can only end in a state with `Q`. -/
def Triple (perform : Actions σ ι α) (P : σ → Prop) (p : Process α) (Q : σ → Prop) : Prop :=
  ∀ ⦃s s'⦄, P s → Run perform (s, p) (s', .skip) → Q s'

namespace Triple

variable {P P' Q Q' R : σ → Prop} {p q : Process α}

theorem skip (h : ∀ s, P s → Q s) : Triple perform P .skip Q := by
  intro s s' hs hrun
  cases hrun.skip_inv
  exact h s hs

/-- An action, and the process that it leaves for each input. -/
theorem act {a : α}
    (h : ∀ s x s₁ p, P s → perform a x s = some (s₁, p) →
      Triple perform (fun t => t = s₁) p Q) :
    Triple perform P (.act a) Q := by
  intro s s' hs hrun
  obtain ⟨x, s₁, p, hact, hrest⟩ := hrun.act_inv
  exact h s x s₁ p hs hact rfl hrest

theorem seq (hp : Triple perform P p Q) (hq : Triple perform Q q R) :
    Triple perform P (.seq p q) R := by
  intro s s' hs hrun
  obtain ⟨s₁, hfirst, hsecond⟩ := hrun.seq_inv
  exact hq (hp hs hfirst) hsecond

theorem conseq (h : Triple perform P p Q) (hP : ∀ s, P' s → P s) (hQ : ∀ s, Q s → Q' s) :
    Triple perform P' p Q' :=
  fun _ _ hs hrun => hQ _ (h (hP _ hs) hrun)

end Triple

/-! ## Invariants -/

/-- The actions that meet `J` keep `I`, and what they leave behind meets `J` again. -/
def Keeps (perform : Actions σ ι α) (I : σ → Prop) (J : α → Prop) : Prop :=
  ∀ ⦃a x s s' p⦄, I s → J a → perform a x s = some (s', p) → I s' ∧ p.Forall J

theorem Keeps.step {I : σ → Prop} {J : α → Prop} (hkeeps : Keeps perform I J)
    {c c' : σ × Process α} (h : Step perform c c') (hI : I c.1) (hJ : c.2.Forall J) :
    I c'.1 ∧ c'.2.Forall J := by
  induction h with
  | act hact => exact hkeeps hI hJ hact
  | seq q _ ih =>
      obtain ⟨hI', hJ'⟩ := ih hI hJ.1
      exact ⟨hI', hJ', hJ.2⟩
  | next => exact ⟨hI, hJ.2⟩
  | left q _ ih =>
      obtain ⟨hI', hJ'⟩ := ih hI hJ.1
      exact ⟨hI', hJ', hJ.2⟩
  | right p _ ih =>
      obtain ⟨hI', hJ'⟩ := ih hI hJ.2
      exact ⟨hI', hJ.1, hJ'⟩
  | join => exact ⟨hI, trivial⟩

theorem Keeps.run {I : σ → Prop} {J : α → Prop} (hkeeps : Keeps perform I J)
    {c c' : σ × Process α} (h : Run perform c c') (hI : I c.1) (hJ : c.2.Forall J) :
    I c'.1 ∧ c'.2.Forall J := by
  induction h with
  | refl => exact ⟨hI, hJ⟩
  | tail _ hstep ih => exact hkeeps.step hstep ih.1 ih.2

/-- What every action of a process keeps holds at its end, in whatever order the threads
act. -/
theorem Triple.of_keeps {I : σ → Prop} {J : α → Prop} {p : Process α}
    (hkeeps : Keeps perform I J) (hJ : p.Forall J) : Triple perform I p I :=
  fun _ _ hI hrun => (hkeeps.run hrun hI hJ).1

/-! ## Executing one schedule -/

/-- A step of the leftmost thread, with the input of that moment. -/
def stepLeft (perform : Actions σ ι α) (x : ι) (s : σ) :
    Process α → Option (σ × Process α)
  | .skip => none
  | .act a => perform a x s
  | .seq .skip q => some (s, q)
  | .seq p q => (stepLeft perform x s p).map fun d => (d.1, .seq d.2 q)
  | .par .skip .skip => some (s, .skip)
  | .par .skip q => (stepLeft perform x s q).map fun d => (d.1, .par .skip d.2)
  | .par p q => (stepLeft perform x s p).map fun d => (d.1, .par d.2 q)

/-- The steps of the leftmost thread, one for each input. -/
def runLeft (perform : Actions σ ι α) (c : σ × Process α) : List ι → Option (σ × Process α)
  | [] => some c
  | x :: xs =>
      match stepLeft perform x c.1 c.2 with
      | none => none
      | some d => runLeft perform d xs

theorem step_of_stepLeft {x : ι} {s : σ} {p : Process α} {d : σ × Process α}
    (h : stepLeft perform x s p = some d) : Step perform (s, p) d := by
  induction p generalizing d with
  | skip => cases h
  | act a => exact .act h
  | seq p q ihp _ =>
      cases p <;> simp only [stepLeft, Option.some.injEq, Option.map_eq_some_iff] at h
      case skip =>
        subst h
        exact .next s q
      all_goals
        obtain ⟨d, hd, rfl⟩ := h
        exact .seq q (ihp hd)
  | par p q ihp ihq =>
      cases p <;> try cases q
      all_goals
        simp only [stepLeft, Option.some.injEq, Option.map_eq_some_iff] at h
      case skip.skip =>
        subst h
        exact .join s
      case skip.act | skip.seq | skip.par =>
        obtain ⟨d, hd, rfl⟩ := h
        exact .right _ (ihq hd)
      all_goals
        obtain ⟨d, hd, rfl⟩ := h
        exact .left _ (ihp hd)

/-- An executed schedule is a run. -/
theorem run_of_runLeft {xs : List ι} {c d : σ × Process α}
    (h : runLeft perform c xs = some d) : Run perform c d := by
  induction xs generalizing c with
  | nil =>
      cases h
      exact .refl
  | cons x xs ih =>
      simp only [runLeft] at h
      split at h
      · cases h
      · rename_i hstep
        exact .head (step_of_stepLeft hstep) (ih h)

/-- A schedule that ends with a state of some kind is a run to such a state. -/
theorem exists_run_of_runLeft (perform : Actions σ ι α) (c : σ × Process α) (xs : List ι)
    (q : σ → Bool)
    (h : (runLeft perform c xs).any (fun d => d.2.isSkip && q d.1) = true) :
    ∃ s', Run perform c (s', .skip) ∧ q s' = true := by
  cases hd : runLeft perform c xs with
  | none =>
      rw [hd] at h
      cases h
  | some d =>
      rw [hd] at h
      simp only [Option.any_some, Bool.and_eq_true] at h
      obtain ⟨s', p⟩ := d
      cases p with
      | skip => exact ⟨s', run_of_runLeft hd, h.2⟩
      | _ => cases h.1

end ForkJoin
