import Mathlib.Data.List.Basic

/-!
# Calls that make calls

A call changes the state and makes inner calls, in order; they return before the calls that
wait behind it.  A call that throws has no next state.

Main results:

- Theorem `Returns.exec`: calls that return do so under every bound from their number on.
- Theorems `ends_of_inner` and `Ends.append`: what holds when a call, or several of them, have
  returned.
-/

namespace CallStack

variable {σ α : Type}

/-- The calls return in a state after a number of calls in all. -/
inductive Returns (call : σ → α → Option (σ × List α)) : Nat → σ → List α → σ → Prop
  | nil (s : σ) : Returns call 0 s [] s
  | cons {n : Nat} {s t u : σ} {a : α} {inner rest : List α}
      (hcall : call s a = some (t, inner)) (hreturns : Returns call n t (inner ++ rest) u) :
      Returns call (n + 1) s (a :: rest) u

/-- The calls, as far as a bound on their number allows. -/
def exec (call : σ → α → Option (σ × List α)) : Nat → σ → List α → Option σ
  | _, s, [] => some s
  | 0, _, _ :: _ => none
  | fuel + 1, s, a :: rest =>
      match call s a with
      | none => none
      | some (t, inner) => exec call fuel t (inner ++ rest)

variable {call : σ → α → Option (σ × List α)} {n m fuel : Nat} {s t u : σ} {a : α}
  {calls calls' inner : List α}

theorem Returns.exec (h : Returns call n s calls t) (hfuel : n ≤ fuel) :
    exec call fuel s calls = some t := by
  induction h generalizing fuel with
  | nil s => cases fuel <;> rfl
  | cons hcall _ ih =>
      cases fuel with
      | zero => omega
      | succ fuel =>
          simp only [CallStack.exec, hcall]
          exact ih (by omega)

/-- Calls that wait behind others are made when these have returned. -/
theorem Returns.append (h : Returns call n s calls t) (h' : Returns call m t calls' u) :
    Returns call (n + m) s (calls ++ calls') u := by
  induction h with
  | nil s => simpa using h'
  | cons hcall _ ih =>
      rw [Nat.add_right_comm, List.cons_append]
      exact .cons hcall (by simpa using ih h')

/-! ## Calls with a bound and a postcondition -/

/-- The calls return, after a bounded number of calls in all, in a state with a property. -/
def Ends (call : σ → α → Option (σ × List α)) (bound : Nat) (s : σ) (calls : List α)
    (post : σ → Prop) : Prop :=
  ∃ n ≤ bound, ∃ t, Returns call n s calls t ∧ post t

variable {post post' : σ → Prop} {bound bound' : Nat}

theorem Ends.mono (h : Ends call bound s calls post) (hle : bound ≤ bound') :
    Ends call bound' s calls post := by
  obtain ⟨n, hn, t, ht⟩ := h
  exact ⟨n, Nat.le_trans hn hle, t, ht⟩

theorem Ends.weaken (h : Ends call bound s calls post) (himp : ∀ t, post t → post' t) :
    Ends call bound s calls post' := by
  obtain ⟨n, hn, t, hreturns, ht⟩ := h
  exact ⟨n, hn, t, hreturns, himp t ht⟩

theorem ends_nil (h : post s) : Ends call 0 s [] post :=
  ⟨0, Nat.le_refl 0, s, .nil s, h⟩

/-- One call, by its inner calls. -/
theorem ends_of_inner (hcall : call s a = some (t, inner)) (h : Ends call bound t inner post) :
    Ends call (bound + 1) s [a] post := by
  obtain ⟨n, hn, u, hreturns, hu⟩ := h
  refine ⟨n + 1, Nat.succ_le_succ hn, u, .cons hcall ?_, hu⟩
  rwa [List.append_nil]

/-- A call that makes no other. -/
theorem ends_leaf (hcall : call s a = some (t, [])) (h : post t) : Ends call 1 s [a] post :=
  ends_of_inner hcall (ends_nil h)

/-- Calls one after the other. -/
theorem Ends.append (h : Ends call bound s calls post)
    (h' : ∀ t, post t → Ends call bound' t calls' post') :
    Ends call (bound + bound') s (calls ++ calls') post' := by
  obtain ⟨n, hn, t, hreturns, ht⟩ := h
  obtain ⟨m, hm, u, hreturns', hu⟩ := h' t ht
  exact ⟨n + m, Nat.add_le_add hn hm, u, hreturns.append hreturns', hu⟩

theorem Ends.exec (h : Ends call bound s calls post) (hle : bound ≤ fuel) :
    ∃ t, exec call fuel s calls = some t ∧ post t := by
  obtain ⟨n, hn, t, hreturns, ht⟩ := h
  exact ⟨t, hreturns.exec (Nat.le_trans hn hle), ht⟩

end CallStack
