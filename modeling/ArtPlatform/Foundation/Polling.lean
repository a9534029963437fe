import Mathlib.Data.List.Basic
import Mathlib.Data.List.Chain
import Mathlib.Tactic.Common

/-!
# Polling with a timeout

A loop looks, and answers at once when what it sees decides; otherwise it sleeps, and gives
up when the time that has passed since it began reaches the timeout.  A list of polls is
what a loop has looked at so far; it may have to go on.

Main results:

- Theorem `wait_eq_some_iff`: the answer is given by the first poll that decides or that is
  too late.
- Theorem `wait_eq_none_iff`: when the loop goes on.
- Theorem `wait_ne_none`: a loop that sleeps comes to its end.
-/

namespace Polling

variable {ω β : Type} (verdict : ω → Option β) (elapsed : ω → Nat) (timeout : Nat) (late : β)

/-- The answer of the loop, `none` while it goes on. -/
def wait : List ω → Option β
  | [] => none
  | poll :: polls =>
      match verdict poll with
      | some answer => some answer
      | none => if timeout ≤ elapsed poll then some late else wait polls

/-- The poll does not end the loop. -/
def GoesOn (poll : ω) : Prop :=
  verdict poll = none ∧ elapsed poll < timeout

/-- The poll ends the loop with an answer. -/
def Ends (answer : β) (poll : ω) : Prop :=
  verdict poll = some answer ∨ verdict poll = none ∧ timeout ≤ elapsed poll ∧ answer = late

variable {verdict elapsed timeout late} {polls : List ω} {answer : β}

attribute [local simp] wait in
theorem wait_cons_of_goesOn {poll : ω} (h : GoesOn verdict elapsed timeout poll) :
    wait verdict elapsed timeout late (poll :: polls) =
      wait verdict elapsed timeout late polls := by
  simp [h.1, Nat.not_le.mpr h.2]

theorem wait_cons_of_ends {poll : ω} (h : Ends verdict elapsed timeout late answer poll) :
    wait verdict elapsed timeout late (poll :: polls) = some answer := by
  rcases h with hdecided | ⟨hnone, hlate, rfl⟩
  · rw [wait, hdecided]
  · rw [wait, hnone]
    exact if_pos hlate

theorem goesOn_or_ends (late : β) (poll : ω) :
    GoesOn verdict elapsed timeout poll ∨ ∃ b, Ends verdict elapsed timeout late b poll := by
  cases hverdict : verdict poll with
  | some b => exact .inr ⟨b, .inl hverdict⟩
  | none =>
      by_cases hlate : timeout ≤ elapsed poll
      · exact .inr ⟨late, .inr ⟨hverdict, hlate, rfl⟩⟩
      · exact .inl ⟨hverdict, Nat.lt_of_not_le hlate⟩

/-- The loop goes on as long as every poll lets it. -/
theorem wait_eq_none_iff :
    wait verdict elapsed timeout late polls = none ↔
      ∀ poll ∈ polls, GoesOn verdict elapsed timeout poll := by
  induction polls with
  | nil => simp [wait]
  | cons poll polls ih =>
      rcases goesOn_or_ends late poll with hon | ⟨b, hends⟩
      · rw [wait_cons_of_goesOn hon, ih]
        simp [hon]
      · rw [wait_cons_of_ends hends]
        simp only [reduceCtorEq, List.mem_cons, forall_eq_or_imp, false_iff]
        rintro ⟨⟨hnone, hlt⟩, -⟩
        rcases hends with hdecided | ⟨-, hlate, -⟩
        · rw [hnone] at hdecided
          cases hdecided
        · exact absurd hlate (Nat.not_le.mpr hlt)

/-- The answer is that of the first poll that ends the loop. -/
theorem wait_eq_some_iff :
    wait verdict elapsed timeout late polls = some answer ↔
      ∃ earlier poll later, polls = earlier ++ poll :: later ∧
        (∀ q ∈ earlier, GoesOn verdict elapsed timeout q) ∧
        Ends verdict elapsed timeout late answer poll := by
  constructor
  · intro h
    induction polls with
    | nil => cases h
    | cons poll polls ih =>
        rcases goesOn_or_ends late poll with hon | ⟨b, hends⟩
        · rw [wait_cons_of_goesOn hon] at h
          obtain ⟨earlier, q, later, rfl, hearlier, hq⟩ := ih h
          refine ⟨poll :: earlier, q, later, rfl, ?_, hq⟩
          intro p hp
          rcases List.mem_cons.mp hp with rfl | hp
          · exact hon
          · exact hearlier p hp
        · rw [wait_cons_of_ends hends] at h
          obtain rfl := Option.some.inj h
          exact ⟨[], poll, polls, rfl, by simp, hends⟩
  · rintro ⟨earlier, poll, later, rfl, hearlier, hends⟩
    induction earlier with
    | nil => exact wait_cons_of_ends hends
    | cons q earlier ih =>
        rw [List.cons_append, wait_cons_of_goesOn (hearlier q List.mem_cons_self)]
        exact ih fun p hp => hearlier p (List.mem_cons_of_mem q hp)

/-- An answer that lateness does not give is the verdict of a poll. -/
theorem wait_eq_some_iff_of_ne_late (hne : answer ≠ late) :
    wait verdict elapsed timeout late polls = some answer ↔
      ∃ earlier poll later, polls = earlier ++ poll :: later ∧
        (∀ q ∈ earlier, GoesOn verdict elapsed timeout q) ∧ verdict poll = some answer := by
  have hends : ∀ poll,
      Ends verdict elapsed timeout late answer poll ↔ verdict poll = some answer := by
    intro poll
    exact or_iff_left fun hlate => hne hlate.2.2
  simp only [wait_eq_some_iff, hends]

/-- Every sleep takes the delay at least. -/
def Spaced (elapsed : ω → Nat) (delay : Nat) (polls : List ω) : Prop :=
  ∀ earlier poll later, polls = earlier ++ poll :: later →
    (earlier.length + 1) * delay ≤ elapsed poll

/-- A loop has its answer once its sleeps alone take the timeout. -/
theorem wait_ne_none {delay : Nat} (hspaced : Spaced elapsed delay polls) (hpolls : polls ≠ [])
    (htime : timeout ≤ polls.length * delay) : wait verdict elapsed timeout late polls ≠ none := by
  intro h
  obtain ⟨earlier, poll, rfl⟩ := (List.eq_nil_or_concat' polls).resolve_left hpolls
  have hslept := hspaced earlier poll [] rfl
  have hon := wait_eq_none_iff.mp h poll (by simp)
  rw [List.length_append, List.length_singleton] at htime
  exact absurd hon.2 (Nat.not_lt.mpr (htime.trans hslept))

end Polling
