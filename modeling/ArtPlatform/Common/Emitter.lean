import Mathlib.Data.List.Basic

/-!
# The emitter

An emitter is made of three callbacks: for values, for errors, and for the end.  Most of its
methods that end it go through `complete`, which keeps a flag; `emitWithError` runs the completer
itself.  A callback may throw, and then the method that runs it does so too.

Main results:

- Theorem `endsOnce_iff`: the sequences of calls of which the completer runs at most once.
- Theorem `completer_runs_twice`: an error and a completion.
-/

namespace ArtPlatform

/-- A callback with what it was given. -/
inductive Callback (T E : Type)
  | emitter (value : T)
  | errorEmitter (throwable : E)
  | completer
deriving DecidableEq, Repr

inductive EmitterMethod (T E : Type)
  | emit (value : T)
  | emitWithError (value : T) (throwable : E)
  | emitWithCompletion (value : T)
  | emitError (throwable : E)
  | complete
  | completeWithError (throwable : E)
deriving DecidableEq, Repr

/-- A call of a method, and whether the callbacks return where it runs them. -/
structure EmitterCall (T E : Type) where
  method : EmitterMethod T E
  emitterReturns : Bool := true
  errorEmitterReturns : Bool := true
  completerReturns : Bool := true
deriving DecidableEq, Repr

/-- The callbacks that have been run are recorded only: no method depends on them. -/
structure Emitter (T E : Type) where
  completed : Bool := false
  ran : List (Callback T E) := []
deriving DecidableEq, Repr

namespace Emitter

variable {T E : Type}

/-! ## The methods -/

/-- The emitter behind a method, and whether the method has returned. -/
abbrev Outcome (T E : Type) :=
  Emitter T E × Bool

/-- The next statement, unless the one in front of it has thrown. -/
def Outcome.andThen (o : Outcome T E) (next : Emitter T E → Outcome T E) : Outcome T E :=
  if o.2 then next o.1 else o

section

variable (c : EmitterCall T E)

def emit (value : T) (s : Emitter T E) : Outcome T E :=
  ({ s with ran := s.ran ++ [.emitter value] }, c.emitterReturns)

def emitError (throwable : E) (s : Emitter T E) : Outcome T E :=
  ({ s with ran := s.ran ++ [.errorEmitter throwable] }, c.errorEmitterReturns)

/-- `completer()` -/
def runCompleter (s : Emitter T E) : Outcome T E :=
  ({ s with ran := s.ran ++ [.completer] }, c.completerReturns)

def complete (s : Emitter T E) : Outcome T E :=
  if s.completed then (s, true)
  else (runCompleter c s).andThen fun s => ({ s with completed := true }, true)

def emitWithError (value : T) (throwable : E) (s : Emitter T E) : Outcome T E :=
  ((emit c value s).andThen (emitError c throwable)).andThen (runCompleter c)

def emitWithCompletion (value : T) (s : Emitter T E) : Outcome T E :=
  (emit c value s).andThen (complete c)

def completeWithError (throwable : E) (s : Emitter T E) : Outcome T E :=
  (emitError c throwable s).andThen (complete c)

end

/-- The emitter behind a call; what the caller does with an exception is not the emitter's. -/
def call (s : Emitter T E) (c : EmitterCall T E) : Emitter T E :=
  match c.method with
  | .emit value => (emit c value s).1
  | .emitWithError value throwable => (emitWithError c value throwable s).1
  | .emitWithCompletion value => (emitWithCompletion c value s).1
  | .emitError throwable => (emitError c throwable s).1
  | .complete => (complete c s).1
  | .completeWithError throwable => (completeWithError c throwable s).1

/-- How often the completer has run. -/
def completions (s : Emitter T E) : Nat :=
  s.ran.countP fun
    | .completer => true
    | _ => false

/-- A call has completed the emitter: its completer has run, or its flag is set. -/
def Ended (s : Emitter T E) : Prop :=
  0 < s.completions ∨ s.completed = true

end Emitter

open Emitter

variable {T E : Type}

/-- The completer runs at most once, and not behind a call that has completed the emitter. -/
structure EndsOnce (calls : List (EmitterCall T E)) : Prop where
  once : (calls.foldl call {}).completions ≤ 1
  never_again : ∀ before after, calls = before ++ after → (before.foldl call {}).Ended →
    (calls.foldl call {}).completions = (before.foldl call {}).completions

/-! ## The condition -/

namespace EmitterCall

/-- The call gets past its emissions to its end. -/
def ends (c : EmitterCall T E) : Bool :=
  match c.method with
  | .emit _ | .emitError _ => false
  | .emitWithError _ _ => c.emitterReturns && c.errorEmitterReturns
  | .emitWithCompletion _ => c.emitterReturns
  | .complete => true
  | .completeWithError _ => c.errorEmitterReturns

/-- The end is left to `complete`. -/
def guarded (c : EmitterCall T E) : Bool :=
  match c.method with
  | .emitWithError _ _ => false
  | _ => true

end EmitterCall

def endings (calls : List (EmitterCall T E)) : List (EmitterCall T E) :=
  calls.filter EmitterCall.ends

/-- At most one call gets to its end, or `complete` is the end of all that do and the first of
them sets the flag. -/
def OneEnding (calls : List (EmitterCall T E)) : Prop :=
  (endings calls).length ≤ 1 ∨
    (∀ c ∈ endings calls, c.guarded = true) ∧ ∀ c ∈ (endings calls).head?, c.completerReturns = true

/-! ## One call -/

namespace Emitter

variable {s : Emitter T E} {c : EmitterCall T E} {calls : List (EmitterCall T E)}

/-- What a call does to the flag and the number of completions. -/
theorem call_spec (s : Emitter T E) (c : EmitterCall T E) :
    ((call s c).completed, (call s c).completions) =
      if c.ends = false ∨ (c.guarded = true ∧ s.completed = true) then (s.completed, s.completions)
      else (s.completed || (c.guarded && c.completerReturns), s.completions + 1) := by
  obtain ⟨method, emitterReturns, errorEmitterReturns, completerReturns⟩ := c
  obtain ⟨completed, ran⟩ := s
  cases method with
  | emit value => simp [call, emit, EmitterCall.ends, completions]
  | emitError throwable => simp [call, emitError, EmitterCall.ends, completions]
  | emitWithError value throwable =>
      -- The completer is run whatever the flag is, and the flag is not set.
      cases emitterReturns <;> cases errorEmitterReturns <;>
        simp [call, emitWithError, emit, emitError, runCompleter, Outcome.andThen,
          EmitterCall.ends, EmitterCall.guarded, completions]
  | complete =>
      cases completed <;> cases completerReturns <;>
        simp [call, complete, runCompleter, Outcome.andThen, EmitterCall.ends,
          EmitterCall.guarded, completions]
  | emitWithCompletion value =>
      cases emitterReturns <;> cases completed <;> cases completerReturns <;>
        simp [call, emitWithCompletion, emit, complete, runCompleter, Outcome.andThen,
          EmitterCall.ends, EmitterCall.guarded, completions]
  | completeWithError throwable =>
      cases errorEmitterReturns <;> cases completed <;> cases completerReturns <;>
        simp [call, completeWithError, emitError, complete, runCompleter, Outcome.andThen,
          EmitterCall.ends, EmitterCall.guarded, completions]

theorem call_of_quiet (h : c.ends = false) :
    (call s c).completed = s.completed ∧ (call s c).completions = s.completions := by
  have hspec := call_spec s c
  rw [if_pos (.inl h)] at hspec
  exact Prod.mk.inj hspec

theorem call_of_closed (h : s.completed = true) :
    (call s c).completed = true ∧
      (call s c).completions = s.completions + if c.ends && !c.guarded then 1 else 0 := by
  have hspec := call_spec s c
  cases hends : c.ends <;> cases hguarded : c.guarded <;>
    simpa [hends, hguarded, h] using hspec

theorem call_of_open (h : s.completed = false) (hends : c.ends = true) :
    (call s c).completed = (c.guarded && c.completerReturns) ∧
      (call s c).completions = s.completions + 1 := by
  have hspec := call_spec s c
  simpa [hends, h] using hspec

theorem completions_le_call (s : Emitter T E) (c : EmitterCall T E) :
    s.completions ≤ (call s c).completions := by
  have hcompletions := congrArg Prod.snd (call_spec s c)
  split at hcompletions
  · exact Nat.le_of_eq hcompletions.symm
  · exact Nat.le.intro hcompletions.symm

/-- A completed emitter has run its completer. -/
theorem completions_pos_call (h : s.completed = true → 0 < s.completions)
    (hcompleted : (call s c).completed = true) : 0 < (call s c).completions := by
  have hspec := call_spec s c
  split at hspec
  · obtain ⟨hflag, hsame⟩ := Prod.mk.inj hspec
    rw [hsame]
    exact h (hflag.symm.trans hcompleted)
  · rw [(Prod.mk.inj hspec).2]
    exact Nat.succ_pos _

/-! ## Sequences of calls -/

theorem completions_le_calls (s : Emitter T E) (calls : List (EmitterCall T E)) :
    s.completions ≤ (calls.foldl call s).completions := by
  induction calls generalizing s with
  | nil => exact Nat.le_refl _
  | cons c calls ih => exact Nat.le_trans (completions_le_call s c) (ih (call s c))

theorem completions_pos_calls (h : s.completed = true → 0 < s.completions)
    (hcompleted : (calls.foldl call s).completed = true) :
    0 < (calls.foldl call s).completions := by
  induction calls generalizing s with
  | nil => exact h hcompleted
  | cons c calls ih => exact ih (completions_pos_call h) hcompleted

theorem completions_of_no_ending (h : endings calls = []) :
    (calls.foldl call s).completions = s.completions := by
  induction calls generalizing s with
  | nil => rfl
  | cons c calls ih =>
      rw [endings, List.filter_eq_nil_iff] at h
      have hc : c.ends = false := by simpa using h c List.mem_cons_self
      have hrest : endings calls = [] :=
        List.filter_eq_nil_iff.mpr fun d hd => h d (List.mem_cons_of_mem c hd)
      rw [List.foldl_cons, ih hrest, (call_of_quiet hc).2]

/-- While the flag is unset, a call that gets to its end runs the completer. -/
theorem lt_completions (hopen : s.completed = false) (h : endings calls ≠ []) :
    s.completions < (calls.foldl call s).completions := by
  induction calls generalizing s with
  | nil => exact absurd rfl h
  | cons c calls ih =>
      cases hends : c.ends with
      | false =>
          obtain ⟨hflag, hsame⟩ := call_of_quiet (s := s) hends
          rw [endings, List.filter_cons_of_neg (by simp [hends])] at h
          rw [List.foldl_cons, ← hsame]
          exact ih (hflag.trans hopen) h
      | true =>
          have hone := (call_of_open hopen hends).2
          have hrest := completions_le_calls (call s c) calls
          rw [List.foldl_cons]
          omega

/-- Behind the flag only the calls that do not look at it run the completer. -/
theorem completions_of_closed (h : s.completed = true) :
    (calls.foldl call s).completions =
      s.completions + (endings calls).countP fun c => !c.guarded := by
  induction calls generalizing s with
  | nil => rfl
  | cons c calls ih =>
      obtain ⟨hflag, hcompletions⟩ := call_of_closed (c := c) h
      rw [List.foldl_cons, ih hflag, hcompletions, endings, endings, List.filter_cons]
      cases hends : c.ends with
      | false => simp
      | true =>
          cases hguarded : c.guarded with
          | true => simp [hguarded]
          | false =>
              simp only [hguarded, Bool.not_false, Bool.and_self, if_true, List.countP_cons]
              omega

/-- From an open emitter the completer runs at most once more if and only if there is one ending. -/
theorem completions_le_succ_iff (hopen : s.completed = false) :
    (calls.foldl call s).completions ≤ s.completions + 1 ↔ OneEnding calls := by
  induction calls generalizing s with
  | nil => exact iff_of_true (Nat.le_succ _) (.inl (Nat.zero_le _))
  | cons c calls ih =>
      cases hends : c.ends with
      | false =>
          obtain ⟨hflag, hsame⟩ := call_of_quiet (s := s) hends
          have hendings : endings (c :: calls) = endings calls :=
            List.filter_cons_of_neg (by simp [hends])
          rw [List.foldl_cons, ← hsame, ih (hflag.trans hopen), OneEnding, OneEnding, hendings]
      | true =>
          obtain ⟨hflag, hone⟩ := call_of_open hopen hends
          have hendings : endings (c :: calls) = c :: endings calls :=
            List.filter_cons_of_pos hends
          rw [List.foldl_cons, OneEnding, hendings, ← hone]
          cases hset : c.guarded && c.completerReturns with
          | true =>
              -- the flag is set, and the calls behind this one may be any that look at it
              obtain ⟨hguarded, hreturns⟩ := Bool.and_eq_true_iff.mp hset
              rw [completions_of_closed (hflag.trans hset)]
              constructor
              · intro hle
                have hnone : (endings calls).countP (fun d => !d.guarded) = 0 := by omega
                rw [List.countP_eq_zero] at hnone
                refine .inr ⟨fun d hd => ?_, by rintro d ⟨⟩; exact hreturns⟩
                rcases List.mem_cons.mp hd with rfl | hd
                · exact hguarded
                · simpa using hnone d hd
              · intro hcond
                have hall : ∀ d ∈ endings calls, d.guarded = true := by
                  rcases hcond with hlength | ⟨hall, -⟩
                  · have hnil : endings calls = [] :=
                      List.length_eq_zero_iff.mp
                        (Nat.le_zero.mp (Nat.le_of_succ_le_succ hlength))
                    rw [hnil]
                    exact fun d hd => absurd hd List.not_mem_nil
                  · exact fun d hd => hall d (List.mem_cons_of_mem c hd)
                have hnone : (endings calls).countP (fun d => !d.guarded) = 0 :=
                  List.countP_eq_zero.mpr fun d hd => by simp [hall d hd]
                omega
          | false =>
              have hrest : (calls.foldl call (call s c)).completions ≤ (call s c).completions ↔
                  endings calls = [] := by
                constructor
                · intro hle
                  by_contra hne
                  exact Nat.not_lt.mpr hle (lt_completions (hflag.trans hset) hne)
                · intro hnone
                  exact Nat.le_of_eq (completions_of_no_ending hnone)
              rw [hrest]
              constructor
              · intro hnil
                rw [hnil]
                exact .inl (Nat.le_refl 1)
              · rintro (hlength | ⟨hall, hfirst⟩)
                · exact List.length_eq_zero_iff.mp (Nat.le_zero.mp (Nat.le_of_succ_le_succ hlength))
                · rw [hall c List.mem_cons_self, hfirst c rfl] at hset
                  cases hset

end Emitter

/-- The completer runs at most once, and not behind a call that has completed the emitter, if and
only if at most one call gets to its end, or all that do leave it to `complete` and the completer
returns in the first of them. -/
theorem endsOnce_iff (calls : List (EmitterCall T E)) : EndsOnce calls ↔ OneEnding calls := by
  have hiff := @completions_le_succ_iff T E {} calls rfl
  rw [← hiff]
  refine ⟨fun h => h.once, fun h => ⟨h, ?_⟩⟩
  rintro before after rfl hended
  have hpos : 0 < (before.foldl call {}).completions := by
    rcases hended with hpos | hcompleted
    · exact hpos
    · exact completions_pos_calls (fun hflag => by cases hflag) hcompleted
  have hle := completions_le_calls (before.foldl call {}) after
  rw [List.foldl_append] at h ⊢
  have hzero : ({} : Emitter T E).completions = 0 := rfl
  omega

/-- `emitWithError` runs the completer, and `complete` runs it again. -/
theorem completer_runs_twice :
    ¬ EndsOnce ([⟨.emitWithError 1 (), true, true, true⟩, ⟨.complete, true, true, true⟩] :
      List (EmitterCall Nat Unit)) := by
  intro h
  exact absurd h.once (by decide)

end ArtPlatform
